import FlowAudit.Text.Numeral
import FlowAudit.Yaml.Style

namespace FlowAudit.Yaml

/-- The text written so far and where it ends. -/
structure Writer where
  /-- The characters, the last one first. -/
  written : List Char := []
  column : Nat := 0
  /-- Whether a blank is not needed before what follows. -/
  isSpaced : Bool := true
  /-- Whether only blanks and indicators stand on the line. -/
  isIndent : Bool := true

def maxColumn : Nat := 80

namespace Writer

def put (c : Char) (w : Writer) : Writer :=
  { w with written := c :: w.written, column := w.column + 1 }

def putAll (cs : List Char) (w : Writer) : Writer := cs.foldl (fun w c => w.put c) w

def newline (w : Writer) : Writer := { w with written := '\n' :: w.written, column := 0 }

def putBreak (c : Char) (w : Writer) : Writer :=
  { w with written := c :: w.written, column := 0 }

def indentTo (n : Nat) (w : Writer) : Writer :=
  let w := if !w.isIndent || n < w.column || (w.column == n && !w.isSpaced) then w.newline else w
  { w.putAll (List.replicate (n - w.column) ' ') with isSpaced := true, isIndent := true }

/-- Writes an indicator. It may need a blank before it, may count as one, and may belong to the
indent. -/
def indicator (s : String) (needsSpace isSpace isIndent : Bool) (w : Writer) : Writer :=
  let w := if needsSpace && !w.isSpaced then w.put ' ' else w
  { w.putAll s.toList with isSpaced := isSpace, isIndent := w.isIndent && isIndent }

def flowing (isQuoted mayBreak : Bool) (indent : Nat) :
    (isFirst afterSpace afterBreak : Bool) → List Char → Writer → Writer
  | _, _, _, [], w => w
  | isFirst, afterSpace, afterBreak, c :: rest, w =>
    if c == ' ' then
      if mayBreak && !afterSpace && maxColumn < w.column && rest.head? != some ' ' &&
          (!isQuoted || (!isFirst && !rest.isEmpty)) then
        flowing isQuoted mayBreak indent false true afterBreak rest (w.indentTo indent)
      else flowing isQuoted mayBreak indent false true afterBreak rest (w.put c)
    else if isLineBreak c then
      let w := if !afterBreak && c == '\n' then w.newline else w
      flowing isQuoted mayBreak indent false afterSpace true rest
        { w.putBreak c with isIndent := true }
    else
      let w := if afterBreak then w.indentTo indent else w
      let w := if isQuoted && c == '\'' then w.put c else w
      flowing isQuoted mayBreak indent false false false rest { w.put c with isIndent := false }

def escape (c : Char) : List Char :=
  let upper (cs : List Char) := cs.map Char.toUpper
  let n := c.toNat
  '\\' :: match n with
    | 0 => ['0']
    | 7 => ['a']
    | 8 => ['b']
    | 9 => ['t']
    | 10 => ['n']
    | 11 => ['v']
    | 12 => ['f']
    | 13 => ['r']
    | 0x1B => ['e']
    | 0x85 => ['N']
    | 0xA0 => ['_']
    | 0x2028 => ['L']
    | 0x2029 => ['P']
    | n =>
      if c == '"' || c == '\\' then [c]
      else if n ≤ 0xFF then 'x' :: upper (Text.hex 2 n)
      else if n ≤ 0xFFFF then 'u' :: upper (Text.hex 4 n)
      else 'U' :: upper (Text.hex 8 n)

def escaped (mayBreak : Bool) (indent : Nat) :
    (isFirst afterSpace : Bool) → List Char → Writer → Writer
  | _, _, [], w => w
  | isFirst, afterSpace, c :: rest, w =>
    if !isWritable c || isLineBreak c || c == '"' || c == '\\' then
      escaped mayBreak indent false false rest (w.putAll (escape c))
    else if c == ' ' then
      if mayBreak && !afterSpace && maxColumn < w.column && !isFirst && !rest.isEmpty then
        let w := w.indentTo indent
        let w := if rest.head? == some ' ' then w.put '\\' else w
        escaped mayBreak indent false true rest w
      else escaped mayBreak indent false true rest (w.put c)
    else escaped mayBreak indent false false rest (w.put c)

def lines (indent : Nat) : (afterBreak : Bool) → List Char → Writer → Writer
  | _, [], w => w
  | afterBreak, c :: rest, w =>
    if isLineBreak c then lines indent true rest { w.putBreak c with isIndent := true }
    else
      let w := if afterBreak then w.indentTo indent else w
      lines indent false rest { w.put c with isIndent := false }

def chomping (cs : List Char) : String :=
  match cs.reverse with
  | a :: rest => if !isLineBreak a then "-" else if rest.head?.all isLineBreak then "+" else ""
  | [] => "-"

def literalBlock (indent : Nat) (cs : List Char) (w : Writer) : Writer :=
  let w := w.indicator "|" true false false
  let w := if cs.head?.any fun c => c == ' ' || isLineBreak c then w.indicator "2" false false false
    else w
  let w := (w.indicator (chomping cs) false false false).newline
  lines indent true cs { w with isIndent := true, isSpaced := true }

def closed (w : Writer) : Writer := { w with isSpaced := false, isIndent := false }

/-- A text in its style. Its further lines go to the column `indent`. Of a text that begins with a byte
order mark each character is escaped. -/
def text (indent : Nat) (isKey : Bool) (s : String) (w : Writer) : Writer :=
  let cs := s.toList
  let isMarked := cs.head? == some '\uFEFF'
  match styleOf isKey s with
  | .plain =>
    let w := if w.isSpaced then w else w.put ' '
    (flowing false (!isKey) indent true false false cs w).closed
  | .single =>
    let w := flowing true (!isKey) indent true false false cs (w.indicator "'" true false false)
    (w.indicator "'" false false false).closed
  | .double =>
    let w := w.indicator "\"" true false false
    let w := if isMarked then w.putAll (cs.flatMap escape)
      else escaped (!isKey) indent true false cs w
    (w.indicator "\"" false false false).closed
  | .literal => literalBlock indent cs w

def word (s : String) (w : Writer) : Writer :=
  let w := if w.isSpaced then w else w.put ' '
  (w.putAll s.toList).closed

end Writer

end FlowAudit.Yaml
