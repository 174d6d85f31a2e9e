import FlowAudit.Yaml.Comment
import FlowAudit.Yaml.Token

namespace FlowAudit.Yaml

/-- A place where a key without `?` may have begun. One at the indentation of its block must turn out
to be a key. -/
structure SimpleKey where
  required : Bool
  index : Nat
  line : Nat
  column : Nat
  /-- Whether the tokens of the key are held back until its colon is seen. -/
  waits : Bool := true
  deriving Inhabited, Repr

/-- What is known of keys in one collection: the one that may have begun, and the number of tokens
before the latest such place, or before the collection. -/
structure KeyPlace where
  position : Nat
  key : Option SimpleKey := none
  deriving Inhabited, Repr

/-- The place around a collection that ends. When no key could begin in the collection, a key that
began with it no longer waits. -/
def KeyPlace.after (ended place : KeyPlace) : KeyPlace :=
  if ended.position == place.position then
    { place with key := place.key.map fun k => { k with waits := false } }
  else place

/-- A key is recognised only when its colon is seen, so that tokens are put in before ones already read. -/
structure Scanner where
  edition : Edition
  cursor : Cursor
  /-- The tokens so far, the latest first, and their number. -/
  lexemes : List Lexeme := []
  count : Nat := 0
  /-- The column of the innermost block, and of the blocks around it. -/
  indent : Int := -1
  indents : List Int := []
  keyAllowed : Bool := true
  /-- The keys of each open flow collection, innermost first, and of the block around them. -/
  keys : List KeyPlace := [{ position := 0 }]
  deriving Inhabited

namespace Scanner

def flowLevel (s : Scanner) : Nat := s.keys.length - 1

def inFlow (s : Scanner) : Bool :=
  match s.keys with
  | _ :: _ :: _ => true
  | _ => false

def push (line : Nat) (t : Token) (s : Scanner) : Scanner :=
  { s with lexemes := ⟨t, line⟩ :: s.lexemes, count := s.count + 1 }

def insert (position line : Nat) (t : Token) (s : Scanner) : Scanner :=
  let (later, earlier) := s.lexemes.splitAt (s.count - position)
  { s with lexemes := later ++ ⟨t, line⟩ :: earlier, count := s.count + 1 }

def unroll (column : Int) (s : Scanner) : Scanner :=
  if s.inFlow then s
  else
    let closed := ((s.indent :: s.indents).takeWhile (column < ·)).length
    let s := { s with
      lexemes := List.replicate closed (Lexeme.mk .blockEnd s.cursor.line) ++ s.lexemes
      count := s.count + closed }
    match (s.indent :: s.indents).drop closed with
    | [] => { s with indent := -1, indents := [] }
    | i :: is => { s with indent := i, indents := is }

def roll (column position line : Nat) (t : Token) (s : Scanner) : Except SyntaxError Scanner :=
  if s.inFlow || (column : Int) ≤ s.indent then .ok s
  else if maxNesting ≤ s.indents.length then s.cursor.fail .tooDeep
  else .ok (insert position line t { s with indents := s.indent :: s.indents, indent := column })

def rollHere (t : Token) (s : Scanner) : Except SyntaxError Scanner :=
  s.roll s.cursor.column s.count s.cursor.line t

/-- Whether a key that began there can still be followed by its colon: on the same line, within 1024
characters. -/
def alive (k : SimpleKey) (c : Cursor) : Bool := !(k.line < c.line || k.index + 1024 < c.index)

def dropKey (s : Scanner) : Except SyntaxError Scanner :=
  match s.keys with
  | ⟨position, some k⟩ :: outer =>
    if k.required then s.cursor.fail .missingColon
    else .ok { s with keys := ⟨position, none⟩ :: outer }
  | _ => .ok s

def saveKey (s : Scanner) : Except SyntaxError Scanner :=
  if s.keyAllowed then do
    let key : SimpleKey :=
      { required := !s.inFlow && s.indent == s.cursor.column
        index := s.cursor.index, line := s.cursor.line, column := s.cursor.column }
    let s ← s.dropKey
    return { s with keys := ⟨s.count, some key⟩ :: s.keys.tail }
  else return s

def passComment (fuel : Nat) (s : Scanner) (c : Cursor) : Except SyntaxError Cursor :=
  match s.edition with
  | .older => c.skipWhile (!isBreak ·)
  | .newer => c.skipComments fuel

/-- Passes blanks, comments and line breaks. After a byte order mark any character at the beginning of
a line is passed like the mark. -/
def skipToToken (fuel : Nat) (s : Scanner) : Except SyntaxError Scanner :=
  match fuel with
  | 0 => .ok s
  | fuel + 1 => do
    let c ← s.cursor.need 1
    let c := if c.column == 0 && c.isMarked then c.skip else c
    let c ← c.skipWhile fun x => x == ' ' || ((s.inFlow || !s.keyAllowed) && x == '\t')
    let c ← if c.sees '#' then s.passComment fuel c else pure c
    if c.atBreak then
      skipToToken fuel { s with cursor := ← c.skipBreak, keyAllowed := s.keyAllowed || !s.inFlow }
    else return { s with cursor := c }

def take (n : Nat) (t : Token) (s : Scanner) : Scanner :=
  push s.cursor.line t { s with cursor := s.cursor.skipMany n }

def breakOff (s : Scanner) : Except SyntaxError Scanner := do
  let s ← (s.unroll (-1)).dropKey
  return { s with keyAllowed := false }

def scanEnd (s : Scanner) : Except SyntaxError Scanner := do
  let c := s.cursor
  let s := if c.column == 0 then s else { s with cursor := { c with column := 0, line := c.line + 1 } }
  return (← s.breakOff).take 0 .streamEnd

def scanDirective (fuel : Nat) (s : Scanner) : Except SyntaxError Scanner := do
  let s ← s.breakOff
  let (t, c) ← readDirective fuel s.cursor
  return { s with cursor := c }.push s.cursor.line t

def scanOpen (t : Token) (s : Scanner) : Except SyntaxError Scanner := do
  let s ← s.saveKey
  if maxNesting ≤ s.flowLevel then s.cursor.fail .tooDeep
  else return { s with keys := ⟨s.count, none⟩ :: s.keys, keyAllowed := true }.take 1 t

def scanClose (t : Token) (s : Scanner) : Except SyntaxError Scanner := do
  let s ← s.dropKey
  let keys := match s.keys with
    | ended :: place :: outer => ended.after place :: outer
    | keys => keys
  return { s with keys := keys, keyAllowed := false }.take 1 t

def scanFlowEntry (s : Scanner) : Except SyntaxError Scanner := do
  let s ← s.dropKey
  return { s with keyAllowed := true }.take 1 .flowEntry

def scanBlockEntry (s : Scanner) : Except SyntaxError Scanner := do
  if !s.inFlow && !s.keyAllowed then s.cursor.fail .entryNotAllowed
  else
    let s ← s.rollHere .blockSequence
    let s ← s.dropKey
    return { s with keyAllowed := true }.take 1 .blockEntry

def scanKey (s : Scanner) : Except SyntaxError Scanner := do
  if !s.inFlow && !s.keyAllowed then s.cursor.fail .keyNotAllowed
  else
    let s ← s.rollHere .blockMapping
    let s ← s.dropKey
    return { s with keyAllowed := !s.inFlow }.take 1 .key

/-- The number of tokens that are certain to stay as they are: those before the first key that could
still be one, or must be one. -/
def ready (s : Scanner) : Nat :=
  let waiting := s.keys.filterMap fun place => (place.key.filter fun k =>
    k.waits && (k.required || alive k s.cursor)).map fun _ => place.position
  waiting.foldl min (match s.edition with
    | .older => s.count
    | .newer => s.count - 2)

/-- A colon after a key that was marked by `?`, or after nothing. -/
def scanLoneValue (s : Scanner) : Except SyntaxError Scanner := do
  if !s.inFlow && !s.keyAllowed then s.cursor.fail .valueNotAllowed
  else
    let s ← s.rollHere .blockMapping
    return { s with keyAllowed := !s.inFlow }.take 1 .value

/-- A colon: it ends a key that began on this line, or comes after a key marked by `?`. The place
`last` is the end of the token before. When a key that does not wait has been used up by then, the
tokens that make it a key come too late. -/
def scanValue (last : Cursor) (s : Scanner) : Except SyntaxError Scanner := do
  match s.keys with
  | ⟨position, some k⟩ :: outer =>
    let s := { s with keys := ⟨position, none⟩ :: outer }
    if alive k s.cursor then
      let late := !k.waits && position < ready { s with cursor := last }
      let place := if late then s.count else position
      let s := s.insert place k.line .key
      let s ← s.roll k.column (if late then s.count else position) k.line .blockMapping
      return { s with keyAllowed := false }.take 1 .value
    else if k.required then s.cursor.fail .missingColon
    else s.scanLoneValue
  | _ => s.scanLoneValue

def scanContent (read : Cursor → Except SyntaxError (Token × Cursor)) (s : Scanner) :
    Except SyntaxError Scanner := do
  let s ← s.saveKey
  let (t, c) ← read s.cursor
  return { s with cursor := c, keyAllowed := false }.push s.cursor.line t

def scanBlockScalar (fuel : Nat) (literal : Bool) (s : Scanner) : Except SyntaxError Scanner := do
  let s ← s.dropKey
  let (text, c) ← readBlock fuel literal s.indent s.cursor
  return { s with cursor := c, keyAllowed := true }.push s.cursor.line (.scalar text false)

def scanQuoted (fuel : Nat) (single : Bool) (s : Scanner) : Except SyntaxError Scanner :=
  s.scanContent fun c => do
    let (text, c) ← readQuoted fuel single s.edition c
    return (.scalar text false, c)

def scanPlain (fuel : Nat) (s : Scanner) : Except SyntaxError Scanner := do
  let s ← s.saveKey
  let (text, broken, c) ← readPlain fuel s.inFlow s.indent s.cursor
  return { s with cursor := c, keyAllowed := broken }.push s.cursor.line (.scalar text true)

def isIndicator (c : Char) : Bool := "-?:,[]#&*!|>'\"%@`".toList.contains c || c == '{' || c == '}'

/-- Whether a plain scalar begins here: with anything but an indicator, or with `-`, `?` or `:` when
no blank follows it. -/
def startsPlain (s : Scanner) (x : Char) : Bool :=
  !(isBlank x || isBreak x || isIndicator x) ||
    (x == '-' && !(s.cursor.rest.drop 1).head?.any isBlank) ||
    (!s.inFlow && (x == '?' || x == ':') && !s.cursor.blankAfter 1)

/-- Reads the token that begins with the character `x` here, other than one that stands at the
beginning of a line only. The token before it ended at `last`. -/
def scanInline (fuel : Nat) (last : Cursor) (x : Char) (s : Scanner) :
    Except SyntaxError Scanner :=
  let c := s.cursor
  if x == '[' then s.scanOpen .openSequence
  else if x == '{' then s.scanOpen .openMapping
  else if x == ']' then s.scanClose .closeSequence
  else if x == '}' then s.scanClose .closeMapping
  else if x == ',' then s.scanFlowEntry
  else if x == '-' && c.blankAfter 1 then s.scanBlockEntry
  else if x == '?' && (s.inFlow || c.blankAfter 1) then s.scanKey
  else if x == ':' && (s.inFlow || c.blankAfter 1) then s.scanValue last
  else if x == '*' then s.scanContent fun c => do
    let (name, c) ← readAnchor c
    return (.alias name, c)
  else if x == '&' then s.scanContent fun c => do
    let (name, c) ← readAnchor c
    return (.anchor name, c)
  else if x == '!' then s.scanContent (readTag fuel)
  else if x == '|' && !s.inFlow then s.scanBlockScalar fuel true
  else if x == '>' && !s.inFlow then s.scanBlockScalar fuel false
  else if x == '\'' then s.scanQuoted fuel true
  else if x == '"' then s.scanQuoted fuel false
  else if s.startsPlain x then s.scanPlain fuel
  else c.fail .unexpectedCharacter

def passLineComment (s : Scanner) : Except SyntaxError Scanner :=
  if s.edition = .older || s.lexemes.head?.any (·.token == .blockEntry) then .ok s
  else do return { s with cursor := ← s.cursor.skipLineComment }

/-- Reads the next token, with the ones that it implies. The fuel exceeds the length of the text. -/
def scanToken (fuel : Nat) (s : Scanner) : Except SyntaxError Scanner := do
  let last := s.cursor
  let s ← s.skipToToken fuel
  let s := s.unroll s.cursor.column
  let c ← s.cursor.need 4
  let s := { s with cursor := c }
  match c.peek with
  | none => s.scanEnd
  | some x =>
    if c.column == 0 && x == '%' then s.scanDirective fuel
    else if c.atDocumentMark then
      return (← s.breakOff).take 3 (if x == '-' then .documentStart else .documentEnd)
    else (← s.scanInline fuel last x).passLineComment

/-- The tokens that may be used although reading goes on with an error. -/
def settled (s : Scanner) : List Lexeme := (s.lexemes.drop (s.count - s.ready)).reverse

/-- Reads tokens until the text ends or goes wrong. The fuel exceeds the length of the text. -/
def run (fuel : Nat) (s : Scanner) : List Lexeme × Option SyntaxError :=
  match fuel with
  | 0 => (s.settled, some ⟨.unexpectedEnd, 0⟩)
  | fuel + 1 =>
    match s.scanToken (fuel + 1) with
    | .error e => (s.settled, some e)
    | .ok s =>
      if s.lexemes.head?.any (·.token == .streamEnd) then (s.lexemes.reverse, none) else run fuel s

end Scanner

def tokens (edition : Edition) (text : Supply) : List Lexeme × Option SyntaxError :=
  ({ edition := edition, cursor := .ofSupply text } : Scanner).run (text.text.length + 2)

end FlowAudit.Yaml
