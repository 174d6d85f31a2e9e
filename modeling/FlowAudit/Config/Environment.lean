import FlowAudit.Text.Character
import FlowAudit.Text.Letter
import FlowAudit.Text.Utf8

namespace FlowAudit

abbrev Environment := List (String × String)

namespace Environment

inductive SyntaxError where
  | badName (c : Char)
  | openQuote
  | nothingToExport
  deriving Inhabited, Repr, DecidableEq

def SyntaxError.message : SyntaxError → String
  | badName c => "unexpected character " ++ String.singleton c ++ " in variable name"
  | openQuote => "unterminated quoted value"
  | nothingToExport => "zero length string"

def get? (e : Environment) (name : String) : Option String := (e.find? (·.1 == name)).map (·.2)

def put (e : Environment) (name value : String) : Environment :=
  e.filter (·.1 != name) ++ [(name, value)]

/-- A character of a file, with its bytes. A byte that is part of none stands for U+FFFD. -/
structure Glyph where
  char : Char
  bytes : List UInt8

def glyphs : List UInt8 → List Glyph
  | [] => []
  | b :: rest =>
    if b == 0x0D && rest.head? == some 0x0A then glyphs rest
    else match Text.Utf8.sequence? b rest with
      | some (c, n) => ⟨c, b :: rest.take n⟩ :: glyphs (rest.drop n)
      | none => ⟨Text.Utf8.replacement, [b]⟩ :: glyphs rest
termination_by bytes => bytes.length
decreasing_by all_goals simp; try omega

def textOf (gs : List Glyph) : List Char := gs.map (·.char)

def isGap (c : Char) : Bool := Text.isBlank c && c != '\n' && c.toNat < 0x100

def dropGap (gs : List Glyph) : List Glyph := gs.dropWhile fun g => isGap g.char

/-- Whether a byte may stand in a name: as a character of its own it is a blank, a letter, a number, a
full stop or an underscore. -/
def isNameByte (b : UInt8) : Bool :=
  let c := Char.ofNat b.toNat
  c == '_' || c == '.' || isGap c || Text.isLetter c || Text.isDigit c ||
    [0xB2, 0xB3, 0xB9, 0xBC, 0xBD, 0xBE].contains b.toNat

/-- The name before the first `=` or `:`, and what follows it; without one there is no name. -/
def splitName (whole : List Glyph) (seen : List Char) :
    List Glyph → Except SyntaxError (List Char × List Glyph)
  | [] => if whole.isEmpty then .error .nothingToExport else .ok ([], whole)
  | g :: rest =>
    if g.char == '=' || g.char == ':' then .ok (Text.dropBlankEnd seen.reverse, rest)
    else if g.bytes.all isNameByte then splitName whole (g.char :: seen) rest
    else .error (.badName g.char)

def dropExport (gs : List Glyph) : List Glyph :=
  if textOf (gs.take 6) == "export".toList && (gs.drop 6).head?.any (fun g => isGap g.char) then
    dropGap (gs.drop 6)
  else gs

def isVariableChar (c : Char) : Bool := c.isUpper || c.isDigit || c == '_'

/-- A mention of a variable after its dollar sign: its name, which may be empty, how it is written, and
the rest. -/
def mention (cs : List Char) : List Char × List Char × List Char :=
  let (paren, cs) := match cs with
    | '(' :: rest => (['('], rest)
    | _ => ([], cs)
  let (brace, cs) := match cs with
    | '{' :: rest => (['{'], rest)
    | _ => ([], cs)
  let (name, cs) := cs.span isVariableChar
  let (close, cs) := match cs with
    | '}' :: rest => (['}'], rest)
    | _ => ([], cs)
  (name, '$' :: paren ++ brace ++ name ++ close, cs)

/-- Puts the values of variables in the place of their mentions, unless a backslash stands before. -/
def expand (e : Environment) (fuel : Nat) (cs : List Char) : List Char :=
  match fuel, cs with
  | 0, cs => cs
  | _, [] => []
  | fuel + 1, '\\' :: '$' :: rest =>
    let (_, written, rest) := mention rest
    written ++ expand e fuel rest
  | fuel + 1, '$' :: rest =>
    let (name, written, rest) := mention rest
    (if name.isEmpty then written else ((e.get? (String.ofList name)).getD "").toList) ++
      expand e fuel rest
  | fuel + 1, c :: rest => c :: expand e fuel rest

def expandAll (e : Environment) (cs : List Char) : List Char := expand e (cs.length + 1) cs

def unescapeBreaks : List Char → List Char
  | '\\' :: 'n' :: rest => '\n' :: unescapeBreaks rest
  | '\\' :: 'r' :: rest => '\r' :: unescapeBreaks rest
  | '\\' :: '\n' :: rest => '\\' :: '\n' :: unescapeBreaks rest
  | '\\' :: c :: rest => '\\' :: c :: unescapeBreaks rest
  | c :: rest => c :: unescapeBreaks rest
  | [] => []

/-- Drops the backslashes that do not stand before a dollar sign. -/
def dropBackslashes : List Char → List Char
  | '\\' :: '$' :: rest => '\\' :: '$' :: dropBackslashes rest
  | '\\' :: c :: rest => c :: dropBackslashes rest
  | c :: rest => c :: dropBackslashes rest
  | [] => []

/-- The text before the closing quote and the text after it; a quote after a backslash does not
close. -/
def splitQuoted (quote previous : Char) : List Glyph → Option (List Char × List Glyph)
  | [] => none
  | g :: rest =>
    if g.char == quote && previous != '\\' then some ([], rest)
    else (splitQuoted quote g.char rest).map fun (value, rest) => (g.char :: value, rest)

def trimQuotes (quote : Char) (cs : List Char) : List Char :=
  ((cs.dropWhile (· == quote)).reverse.dropWhile (· == quote)).reverse

/-- Drops the comment at the end of a line, which a blank precedes. The line is given backwards. -/
def dropComment : List Char → Option (List Char)
  | '#' :: c :: rest => if isGap c then some (c :: rest) else dropComment (c :: rest)
  | _ :: rest => dropComment rest
  | [] => none

def plainValue (line : List Char) : List Char :=
  let backwards := line.reverse
  let kept := (dropComment backwards).getD backwards
  (kept.dropWhile isGap).reverse.dropWhile isGap

def splitLine (e : Environment) (gs : List Glyph) : List Char × List Glyph :=
  let (line, rest) := gs.span fun g => g.char != '\n' && g.char != '\r'
  (expandAll e (plainValue (textOf line)), rest)

def splitValue (e : Environment) (gs : List Glyph) : Except SyntaxError (List Char × List Glyph) :=
  match gs with
  | [] => .ok ([], [])
  | g :: rest =>
    if g.char == '"' || g.char == '\'' then
      match splitQuoted g.char g.char rest with
      | some (value, rest) =>
        let value := trimQuotes g.char value
        .ok (if g.char == '"' then expandAll e (dropBackslashes (unescapeBreaks value)) else value,
          rest)
      | none => .error .openQuote
    else .ok (splitLine e (g :: rest))

def skipComments (inComment : Bool) : List Glyph → List Glyph
  | [] => []
  | g :: rest =>
    if inComment then skipComments (g.char != '\n') rest
    else if Text.isBlank g.char then skipComments false rest
    else if g.char == '#' then skipComments true rest
    else g :: rest

/-- The assignments of a text, added to those before; a later one of the same name wins. -/
def assignments (fuel : Nat) (e : Environment) (gs : List Glyph) : Except SyntaxError Environment :=
  match fuel with
  | 0 => .ok e
  | fuel + 1 =>
    match skipComments false gs with
    | [] => .ok e
    | gs => do
      let gs := dropExport gs
      let (name, rest) ← splitName gs [] gs
      let (value, rest) ← splitValue e (dropGap rest)
      assignments fuel (e.put (String.ofList name) (String.ofList value)) rest

def parse (bytes : List UInt8) : Except SyntaxError Environment :=
  assignments (bytes.length + 1) [] (glyphs bytes)

/-- Adds the variables that are not set yet. A value with a null character cannot be set. -/
def extend (e more : Environment) : Environment :=
  e ++ more.filter fun (name, value) => (e.get? name).isNone && !value.contains '\x00'

end Environment

end FlowAudit
