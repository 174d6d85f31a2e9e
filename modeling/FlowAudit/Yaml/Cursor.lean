import FlowAudit.Text.Character
import FlowAudit.Text.Numeral
import FlowAudit.Yaml.Input

namespace FlowAudit.Yaml

/-- The editions of YAML: the older one of flow definitions, and the newer one of settings. -/
inductive Edition where
  | older
  | newer
  deriving Inhabited, Repr, DecidableEq

/-- What may be wrong with a text. -/
inductive Problem where
  | unreadable
  | unexpectedCharacter
  | unexpectedEnd
  | badDirective
  | badAnchor
  | badTag
  | badEscape
  | badIndentation
  | badBlockHeader
  | documentMark
  | missingColon
  | entryNotAllowed
  | keyNotAllowed
  | valueNotAllowed
  | tooDeep
  | incompatibleVersion
  | repeatedDirective
  | unknownHandle
  | missingDocumentStart
  | missingContent
  | missingEntry
  | missingKey
  | openSequence
  | openMapping
  | unknownAnchor (name : String)
  deriving Inhabited, Repr, DecidableEq

def maxNesting : Nat := 10000

def Problem.message : Problem → String
  | .unreadable => "control characters are not allowed"
  | .unexpectedCharacter => "found character that cannot start any token"
  | .unexpectedEnd => "found unexpected end of stream"
  | .badDirective => "found unknown directive name"
  | .badAnchor => "did not find expected alphabetic or numeric character"
  | .badTag => "did not find expected tag URI"
  | .badEscape => "found unknown escape character"
  | .badIndentation => "found a tab character that violates indentation"
  | .badBlockHeader => "did not find expected comment or line break"
  | .documentMark => "found unexpected document indicator"
  | .missingColon => "could not find expected ':'"
  | .entryNotAllowed => "block sequence entries are not allowed in this context"
  | .keyNotAllowed => "mapping keys are not allowed in this context"
  | .valueNotAllowed => "mapping values are not allowed in this context"
  | .tooDeep => "exceeded max depth of " ++ Text.decimal maxNesting
  | .incompatibleVersion => "found incompatible YAML document"
  | .repeatedDirective => "found duplicate directive"
  | .unknownHandle => "found undefined tag handle"
  | .missingDocumentStart => "did not find expected <document start>"
  | .missingContent => "did not find expected node content"
  | .missingEntry => "did not find expected '-' indicator"
  | .missingKey => "did not find expected key"
  | .openSequence => "did not find expected ',' or ']'"
  | .openMapping => "did not find expected ',' or '" ++ Text.closeBrace ++ "'"
  | .unknownAnchor name => "unknown anchor '" ++ name ++ "' referenced"

/-- Why a text is not YAML: a problem, with the number of a line unless that is zero. -/
structure SyntaxError where
  problem : Problem
  line : Nat := 0
  deriving Inhabited, Repr, DecidableEq

def SyntaxError.message (e : SyntaxError) : String :=
  (if e.line == 0 then "" else "line " ++ Text.decimal e.line ++ ": ") ++ e.problem.message

def isBreak (c : Char) : Bool :=
  c == '\n' || c == '\r' || c.toNat == 0x85 || c.toNat == 0x2028 || c.toNat == 0x2029

def isBlank (c : Char) : Bool := c == ' ' || c == '\t'

def isWordChar (c : Char) : Bool := c.isAlphanum || c == '_' || c == '-'

structure Cursor where
  rest : List Char
  index : Nat := 0
  line : Nat := 0
  column : Nat := 0
  /-- The number of characters taken in and not passed; the end of the text may count as several. -/
  unread : Nat := 0
  /-- The sizes of the blocks that are not taken in yet. -/
  blocks : List Nat := []
  /-- Whether something that cannot be read follows the blocks. -/
  isCut : Bool := false
  /-- Whether a byte order mark stood here when something was last taken in. -/
  isMarked : Bool := false
  /-- Whether only blanks have been passed since the last line break. -/
  isFresh : Bool := false
  deriving Inhabited, Repr

namespace Cursor

def ofSupply (s : Supply) : Cursor := { rest := s.text, blocks := s.blocks, isCut := s.isCut }

/-- Stops with a problem at this place. Lines are told from the second one on. -/
def fail {α : Type} (c : Cursor) (p : Problem) : Except SyntaxError α :=
  .error ⟨p, if c.line == 0 then 0 else c.line + 1⟩

/-- Takes in blocks until there are `n` characters unread. Gives also what is left of the blocks, or
nothing when they are too few. -/
def fill (n unread : Nat) : List Nat → Nat × Option (List Nat)
  | [] => (unread, none)
  | b :: rest => if n ≤ unread + b then (unread + b, some rest) else fill n (unread + b) rest

/-- Makes sure that `n` characters are taken in, as far as the text goes. -/
def need (n : Nat) (c : Cursor) : Except SyntaxError Cursor :=
  if n ≤ c.unread then .ok c
  else
    let marked := { c with isMarked := c.rest.head? == some '\uFEFF' }
    match fill n c.unread c.blocks with
    | (unread, some blocks) => .ok { marked with unread := unread, blocks := blocks }
    | (unread, none) =>
      if c.isCut then .error ⟨.unreadable, 0⟩
      else .ok { marked with unread := unread + 1, blocks := [] }

def peek (c : Cursor) : Option Char := c.rest.head?

def sees (c : Cursor) (x : Char) : Bool := c.rest.head? == some x

def blankAfter (c : Cursor) (n : Nat) : Bool :=
  match (c.rest.drop n).head? with
  | none => true
  | some x => isBlank x || isBreak x

def atBreak (c : Cursor) : Bool := c.rest.head?.any isBreak

def atBlank (c : Cursor) : Bool := c.rest.head?.any isBlank

def atEnd (c : Cursor) : Bool := c.rest.isEmpty

def skip (c : Cursor) : Cursor :=
  { c with
    rest := c.rest.tail, index := c.index + 1, column := c.column + 1, unread := c.unread - 1
    isFresh := c.isFresh && c.atBlank }

def skipMany : Nat → Cursor → Cursor
  | 0, c => c
  | n + 1, c => skipMany n c.skip

def nextLine (n : Nat) (rest : List Char) (c : Cursor) : Cursor :=
  { c with
    rest := rest, index := c.index + n, line := c.line + 1, column := 0, unread := c.unread - n
    isFresh := true }

/-- Passes a line break, of which a carriage return with a line feed is one. Gives the character that
the break stands for; at anything else there is none, and nothing is passed. -/
def takeBreak (c : Cursor) : List Char × Cursor :=
  match c.rest with
  | '\r' :: '\n' :: rest => (['\n'], c.nextLine 2 rest)
  | x :: rest =>
    if isBreak x then
      ([if x.toNat == 0x2028 || x.toNat == 0x2029 then x else '\n'], c.nextLine 1 rest)
    else ([], c)
  | [] => ([], c)

def skipBreak (c : Cursor) : Except SyntaxError Cursor :=
  if c.atBreak then do return (← c.need 2).takeBreak.2 else .ok c

def skipOver (test : Char → Bool) : List Char → Cursor → Except SyntaxError Cursor
  | [], c => .ok c
  | x :: rest, c => if test x then do skipOver test rest (← c.skip.need 1) else .ok c

def skipWhile (test : Char → Bool) (c : Cursor) : Except SyntaxError Cursor := do
  let c ← c.need 1
  c.skipOver test c.rest

def takeWhile (test : Char → Bool) (c : Cursor) : Except SyntaxError (List Char × Cursor) := do
  return (c.rest.takeWhile test, ← c.skipWhile test)

def atDocumentMark (c : Cursor) : Bool :=
  c.column == 0 && (['-', '-', '-'].isPrefixOf c.rest || ['.', '.', '.'].isPrefixOf c.rest) &&
    c.blankAfter 3

def skipComment (c : Cursor) : Except SyntaxError Cursor := do
  let c ← c.skipWhile isBlank
  if c.sees '#' then c.skipWhile (!isBreak ·) else return c

end Cursor

end FlowAudit.Yaml
