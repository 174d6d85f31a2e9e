import FlowAudit.Markup.Name
import FlowAudit.Text.Character
import FlowAudit.Text.Numeral

namespace FlowAudit.Markup

/-- A name with its prefix, which is empty when there is none. -/
structure QName where
  space : String
  base : String
  deriving Inhabited, Repr, DecidableEq

inductive Token where
  | startTag (name : QName) (isEmpty : Bool)
  | endTag (name : QName)
  | text (cs : List Char)
  | skipped
  deriving Inhabited, Repr

/-- Why a text is not well formed. -/
inductive SyntaxError where
  | unexpectedEnd
  | badName
  | badTag
  | badAttribute
  | badComment
  | badSection
  | strayClose
  | badReference
  | illegalCharacter
  | unsupportedVersion
  | unsupportedEncoding
  | mismatchedTag (name : String)
  deriving Inhabited, Repr, DecidableEq

def SyntaxError.message : SyntaxError → String
  | .unexpectedEnd => "unexpected end of document"
  | .badName => "invalid name"
  | .badTag => "invalid tag"
  | .badAttribute => "invalid attribute"
  | .badComment => "two hyphens in a comment"
  | .badSection => "invalid marked section"
  | .strayClose => "section end outside a section"
  | .badReference => "invalid character reference"
  | .illegalCharacter => "illegal character"
  | .unsupportedVersion => "unsupported version"
  | .unsupportedEncoding => "unsupported encoding"
  | .mismatchedTag name => "unexpected end tag " ++ name

def isSpace (c : Char) : Bool := c == ' ' || c == '\r' || c == '\n' || c == '\t'

def skipSpace (cs : List Char) : List Char := cs.dropWhile isSpace

def isLegal (c : Char) : Bool :=
  let n := c.toNat
  n == 0x09 || n == 0x0A || n == 0x0D || (0x20 ≤ n && n ≤ 0xD7FF) || (0xE000 ≤ n && n ≤ 0xFFFD) ||
    0x10000 ≤ n

def splitAt? (mark : List Char) (cs : List Char) : Option (List Char × List Char) := seek [] cs
where
  seek (before : List Char) : List Char → Option (List Char × List Char)
    | [] => if mark.isEmpty then some (before.reverse, []) else none
    | c :: rest =>
      if mark.isPrefixOf (c :: rest) then some (before.reverse, (c :: rest).drop mark.length)
      else seek (c :: before) rest

/-- A name, which runs as far as ASCII name characters and any others past ASCII do. -/
def readName (cs : List Char) : Except SyntaxError (List Char × List Char) :=
  let (name, rest) := cs.span fun c => 0x80 ≤ c.toNat || isAsciiNameChar c
  if rest.isEmpty then .error .unexpectedEnd
  else if isName name then .ok (name, rest)
  else .error .badName

/-- A name with at most one colon. A colon at either end belongs to the local name. -/
def readQName (cs : List Char) : Except SyntaxError (QName × List Char) := do
  let (name, rest) ← readName cs
  match name.span (· != ':') with
  | (_, []) => return (⟨"", String.ofList name⟩, rest)
  | (space, _ :: base) =>
    if base.contains ':' then throw .badName
    else if space.isEmpty || base.isEmpty then return (⟨"", String.ofList name⟩, rest)
    else return (⟨String.ofList space, String.ofList base⟩, rest)

/-- The character with a code point, a surrogate being replaced. -/
def ofCodePoint? (n : Nat) : Option Char :=
  if 0x10FFFF < n then none
  else if 0xD800 ≤ n && n < 0xE000 then some '�'
  else some (Char.ofNat n)

def namedEntity? : String → Option Char
  | "lt" => some '<'
  | "gt" => some '>'
  | "amp" => some '&'
  | "apos" => some '\''
  | "quot" => some '"'
  | _ => none

def referent? : List Char → Option Char
  | '#' :: 'x' :: digits => (Text.readDigits? 16 digits).bind ofCodePoint?
  | '#' :: digits => (Text.readDigits? 10 digits).bind ofCodePoint?
  | name => namedEntity? (String.ofList name)

/-- What ends a run of character data. -/
inductive Ending where
  | tag
  | sectionEnd
  | quote (mark : Char)
  deriving Inhabited, Repr, DecidableEq

/-- How far the reading of character data has come. -/
structure DataState where
  /-- The characters so far, the latest first. -/
  acc : List Char := []
  /-- The two characters read last, forgotten after a reference. -/
  before : Char := '\x00'
  last : Char := '\x00'
  /-- The reference that is being read, the latest character first. -/
  reference : Option (List Char) := none

/-- Takes a character that stands for itself, except that every line end becomes a line feed. -/
def DataState.push (s : DataState) (c : Char) : DataState :=
  let acc :=
    if c == '\r' then '\n' :: s.acc
    else if c == '\n' && s.last == '\r' then s.acc
    else c :: s.acc
  { s with acc := acc, before := s.last, last := c }

def readData (ending : Ending) (s : DataState) :
    List Char → Except SyntaxError (List Char × List Char)
  | [] =>
    if s.reference.isSome then .error .badReference
    else if ending = .sectionEnd then .error .unexpectedEnd
    else .ok (s.acc, [])
  | c :: rest =>
    match s.reference with
    | some body =>
      if c == ';' then
        match referent? body.reverse with
        | some r => readData ending { acc := r :: s.acc } rest
        | none => .error .badReference
      else readData ending { s with reference := some (c :: body) } rest
    | none =>
      let isClose := s.before == ']' && s.last == ']' && c == '>'
      if isClose && ending = .sectionEnd then .ok (s.acc.drop 2, rest)
      else if isClose && ending = .tag then .error .strayClose
      else if c == '<' && ending = .tag then .ok (s.acc, c :: rest)
      else if c == '<' && ending ≠ .sectionEnd then .error .badAttribute
      else if ending = .quote c then .ok (s.acc, rest)
      else if c == '&' && ending ≠ .sectionEnd then
        readData ending { s with reference := some [] } rest
      else readData ending (s.push c) rest

def readText (ending : Ending) (cs : List Char) : Except SyntaxError (List Char × List Char) := do
  let (acc, rest) ← readData ending {} cs
  if acc.all isLegal then return (acc.reverse, rest) else throw .illegalCharacter

def pseudoAttribute (name : String) (fuel : Nat) (cs : List Char) : String :=
  match fuel with
  | 0 => ""
  | fuel + 1 =>
    match splitAt? (name ++ "=").toList cs with
    | some (_, mark :: rest) =>
      if mark == '\'' || mark == '"' then
        match rest.span (· != mark) with
        | (_, []) => ""
        | (value, _) => String.ofList value
      else pseudoAttribute name fuel rest
    | _ => ""

/-- A processing instruction, from after its `<?`. The XML declaration must say version 1.0 and
UTF-8, where it says either. -/
def readInstruction (cs : List Char) : Except SyntaxError (Token × List Char) := do
  let (target, rest) ← readName cs
  let some (data, rest) := splitAt? ['?', '>'] (skipSpace rest) | throw .unexpectedEnd
  if target == "xml".toList then
    let version := pseudoAttribute "version" data.length data
    if version != "" && version != "1.0" then throw .unsupportedVersion
    let encoding := pseudoAttribute "encoding" data.length data
    if encoding != "" && !Text.isWord "utf-8" encoding then throw .unsupportedEncoding
  return (.skipped, rest)

def readComment (cs : List Char) : Except SyntaxError (Token × List Char) :=
  match splitAt? ['-', '-'] cs with
  | some (_, '>' :: rest) => .ok (.skipped, rest)
  | some (_, _ :: _) => .error .badComment
  | _ => .error .unexpectedEnd

/-- Where a declaration is being read: in its own text, in quotes or in a comment. -/
inductive Inside where
  | declaration
  | quotes (mark : Char)
  | comment
  deriving Inhabited, Repr, DecidableEq

/-- A declaration up to its own `>`: angle brackets nest, except in quotes and comments. -/
def skipDeclaration (place : Inside) (depth : Nat) : List Char → Except SyntaxError (List Char)
  | [] => .error .unexpectedEnd
  | c :: rest =>
    match place with
    | .quotes mark => skipDeclaration (if c == mark then .declaration else place) depth rest
    | .comment =>
      if c == '-' then
        match rest with
        | '-' :: '>' :: rest => skipDeclaration .declaration depth rest
        | rest => skipDeclaration .comment depth rest
      else skipDeclaration .comment depth rest
    | .declaration =>
      if c == '>' then
        if depth == 0 then .ok rest else skipDeclaration .declaration (depth - 1) rest
      else if c == '\'' || c == '"' then skipDeclaration (.quotes c) depth rest
      else if c == '<' then
        match rest with
        | '!' :: '-' :: '-' :: rest => skipDeclaration .comment depth rest
        | rest => skipDeclaration .declaration (depth + 1) rest
      else skipDeclaration .declaration depth rest

def readDeclaration (cs : List Char) : Except SyntaxError (Token × List Char) :=
  match cs with
  | [] => .error .unexpectedEnd
  | '-' :: '-' :: rest => readComment rest
  | '-' :: _ => .error .badComment
  | '[' :: rest =>
    if "CDATA[".toList.isPrefixOf rest then do
      let (data, rest) ← readText .sectionEnd (rest.drop 6)
      return (.text data, rest)
    else .error .badSection
  | _ :: rest => do return (.skipped, ← skipDeclaration .declaration 0 rest)

/-- The attributes of a start tag and its end; tells whether the element is empty. The fuel exceeds
the length of the text. -/
def readAttributes (fuel : Nat) (cs : List Char) : Except SyntaxError (Bool × List Char) :=
  match fuel with
  | 0 => .error .unexpectedEnd
  | fuel + 1 =>
    match skipSpace cs with
    | [] => .error .unexpectedEnd
    | '>' :: rest => .ok (false, rest)
    | '/' :: '>' :: rest => .ok (true, rest)
    | '/' :: _ => .error .badTag
    | cs => do
      let (_, rest) ← readQName cs
      match skipSpace rest with
      | '=' :: rest =>
        match skipSpace rest with
        | mark :: rest =>
          if mark == '"' || mark == '\'' then
            let (_, rest) ← readText (.quote mark) rest
            readAttributes fuel rest
          else throw .badAttribute
        | [] => throw .unexpectedEnd
      | _ => throw .badAttribute

def readToken (fuel : Nat) (cs : List Char) : Except SyntaxError (Token × List Char) :=
  match cs with
  | '<' :: '/' :: rest => do
    let (name, rest) ← readQName rest
    match skipSpace rest with
    | '>' :: rest => return (.endTag name, rest)
    | _ => throw .badTag
  | '<' :: '?' :: rest => readInstruction rest
  | '<' :: '!' :: rest => readDeclaration rest
  | '<' :: rest => do
    let (name, rest) ← readQName rest
    let (isEmpty, rest) ← readAttributes fuel rest
    return (.startTag name isEmpty, rest)
  | cs => do
    let (data, rest) ← readText .tag cs
    return (.text data, rest)

end FlowAudit.Markup
