import FlowAudit.Decimal.Double
import FlowAudit.Text.Character
import FlowAudit.Text.Letter
import FlowAudit.Text.Numeral

namespace FlowAudit.MergeField

inductive Token where
  | name (s : String)
  | number
  | text (s : String)
  | op (s : String)
  | bracket (c : Char)
  deriving Inhabited, Repr, DecidableEq

/-- The word that a token is compared with an operator by: that of a literal is its text. -/
def Token.word? : Token → Option String
  | .name s | .text s | .op s => some s
  | .number | .bracket _ => none

def isNameChar (c : Char) : Bool := c == '_' || c == '$' || Text.isLetter c || Text.isDigit c

def isKeyword (s : String) : Bool :=
  ["not", "in", "or", "and", "matches", "contains", "startsWith", "endsWith", "let", "if",
    "else"].contains s

def octalDigit (c : Char) : Bool := '0' ≤ c && c ≤ '7'

def isHexDigit (c : Char) : Bool := c.isDigit || ('a' ≤ c && c ≤ 'f') || ('A' ≤ c && c ≤ 'F')

/-- The character that an escape by number stands for. The number is a word of 32 bits with a sign:
a code point as it is, and a negative one by its lowest byte. What is no character, such as a lone
surrogate or a byte past ASCII, gives the replacement character. -/
def charOfEscape? (n : Nat) : Option Char :=
  let scalar (n : Nat) : Char := if n.isValidChar then Char.ofNat n else '\uFFFD'
  if n ≤ 0x10FFFF then some (scalar n)
  else if n < 0x80000000 then none
  else some (if n % 0x100 < 0x80 then scalar (n % 0x100) else '\uFFFD')

def hexEscape? (width : Nat) (cs : List Char) : Option (Char × List Char) :=
  let digits := cs.take width
  if digits.length == width && digits.all isHexDigit then do
    return (← charOfEscape? (← Text.readDigits? 16 digits), cs.drop width)
  else none

def octalEscape? (c : Char) (cs : List Char) : Option (Char × List Char) :=
  match cs with
  | d :: e :: rest =>
    if '0' ≤ c && c ≤ '3' && octalDigit d && octalDigit e then
      (Text.readDigits? 8 [c, d, e]).map fun n => (Char.ofNat n, rest)
    else none
  | _ => none

def letterEscapes : List (Char × Char) :=
  [('a', '\x07'), ('b', '\x08'), ('f', '\x0c'), ('n', '\n'), ('r', '\r'), ('t', '\t'), ('v', '\x0b')]

def hexEscapes : List (Char × Nat) := [('x', 2), ('u', 4), ('U', 8)]

def escape? (quote : Char) : List Char → Option (Char × List Char)
  | [] => none
  | c :: rest =>
    if c == quote || c == '\\' then some (c, rest)
    else match letterEscapes.lookup c with
      | some e => some (e, rest)
      | none =>
        match hexEscapes.lookup c with
        | some width => hexEscape? width rest
        | none => octalEscape? c rest

/-- The rest of a quoted literal, which ends on its line. The fuel is at least the length of the
text. -/
def readQuoted? (quote : Char) (fuel : Nat) (acc cs : List Char) : Option (String × List Char) :=
  match fuel, cs with
  | 0, _ | _, [] => none
  | fuel + 1, c :: rest =>
    if c == quote then some (String.ofList acc.reverse, rest)
    else if c == '\n' then none
    else if c == '\\' then
      match escape? quote rest with
      | some (e, rest) => readQuoted? quote fuel (e :: acc) rest
      | none => none
    else readQuoted? quote fuel (c :: acc) rest

/-- The rest of a literal between backticks, in which two of them stand for one. -/
def readRaw? (acc : List Char) : List Char → Option (String × List Char)
  | [] => none
  | '`' :: '`' :: rest => readRaw? ('`' :: acc) rest
  | '`' :: rest => some (String.ofList acc.reverse, rest)
  | c :: rest => readRaw? (c :: acc) rest

/-- The mark of the base of a number, if it has one, with the digits of that base, and what follows. -/
def spanBase (cs : List Char) : List Char × (Char → Bool) × List Char :=
  match cs with
  | '0' :: x :: rest =>
    if x == 'x' || x == 'X' then (['0', x], isHexDigit, rest)
    else if x == 'o' || x == 'O' then (['0', x], octalDigit, rest)
    else if x == 'b' || x == 'B' then (['0', x], (fun c => c == '0' || c == '1'), rest)
    else ([], Char.isDigit, cs)
  | cs => ([], Char.isDigit, cs)

/-- A run of digits, among which underscores may stand, and what follows. -/
def spanDigits (isDigit : Char → Bool) (cs : List Char) : List Char × List Char :=
  cs.span fun c => isDigit c || c == '_'

/-- The fraction of a number, if it has one, and what follows. A second full stop right after the first
belongs to a range, which ends the number. -/
def spanFraction? (isDigit : Char → Bool) (cs : List Char) : Option (List Char × List Char) :=
  match cs with
  | '.' :: '.' :: _ => none
  | '.' :: rest =>
    let (ds, rest) := spanDigits isDigit rest
    some ('.' :: ds, rest)
  | rest => some ([], rest)

def spanSign (cs : List Char) : List Char × List Char :=
  match cs with
  | '+' :: rest => (['+'], rest)
  | '-' :: rest => (['-'], rest)
  | rest => ([], rest)

def spanExponent (isDigit : Char → Bool) (cs : List Char) : List Char × List Char :=
  match cs with
  | e :: rest =>
    if e == 'e' || e == 'E' then
      let (sign, rest) := spanSign rest
      let (ds, rest) := spanDigits isDigit rest
      (e :: sign ++ ds, rest)
    else ([], cs)
  | [] => ([], [])

def spanNumber (cs : List Char) : List Char × List Char :=
  let (head, isDigit, rest) := spanBase cs
  let (whole, rest) := spanDigits isDigit rest
  match spanFraction? isDigit rest with
  | none => (head ++ whole, rest)
  | some (fraction, rest) =>
    let (exponent, rest) := spanExponent isDigit rest
    (head ++ whole ++ fraction ++ exponent, rest)

/-- Whether the literal is a number in range: a whole one of 63 bits or a finite fraction. -/
def isNumber (literal : List Char) : Bool :=
  let cs := literal.filter (· != '_')
  let small (n : Option Nat) : Bool := n.any (· < 0x8000000000000000)
  match cs with
  | '0' :: x :: digits =>
    if x == 'x' || x == 'X' then small (Text.readDigits? 16 digits)
    else if cs.any fun c => c == '.' || c == 'e' || c == 'E' then (Double.ofLiteral? cs).isSome
    else if x == 'b' || x == 'B' then small (Text.readDigits? 2 digits)
    else if x == 'o' || x == 'O' then small (Text.readDigits? 8 digits)
    else small (Text.readDigits? 10 cs)
  | cs =>
    if cs.any fun c => c == '.' || c == 'e' || c == 'E' then (Double.ofLiteral? cs).isSome
    else small (Text.readDigits? 10 cs)

def readNumber? (head cs : List Char) : Option (List Token × List Char) :=
  let (literal, rest) := spanNumber cs
  if rest.head?.any isNameChar || !isNumber (head ++ literal) then none
  else some ([.number], rest)

def closeComment? : List Char → Option (List Char)
  | '*' :: '/' :: rest => some rest
  | _ :: rest => closeComment? rest
  | [] => none

def operator (c : Char) (second rest : List Char) : List Token × List Char :=
  match rest with
  | d :: more =>
    if second.contains d then ([.op (String.ofList [c, d])], more)
    else ([.op (String.ofList [c])], rest)
  | [] => ([.op (String.ofList [c])], [])

def nameToken (s : String) : Token := if isKeyword s then .op s else .name s

/-- The next tokens of a text that begins with `c`: none for blanks and comments, and two for a
pointer with a name. The fuel is at least the length of the rest. -/
def next? (fuel : Nat) (c : Char) (rest : List Char) : Option (List Token × List Char) :=
  if Text.isBlank c then some ([], rest)
  else if c == '\'' || c == '"' then
    (readQuoted? c fuel [] rest).map fun (s, rest) => ([.text s], rest)
  else if c == '`' then (readRaw? [] rest).map fun (s, rest) => ([.text s], rest)
  else if c.isDigit then readNumber? [] (c :: rest)
  else if c == '.' then
    if rest.head?.any Char.isDigit then readNumber? ['.'] rest else some (operator c ['.'] rest)
  else if c == '?' then some (operator c ['.', '?'] rest)
  else if c == '|' then some (operator c ['|'] rest)
  else if c == ':' then some (operator c [':'] rest)
  else if "&!=*<>".toList.contains c then some (operator c ['&', '=', '*'] rest)
  else if ",;%+-^".toList.contains c then some ([.op (String.ofList [c])], rest)
  else if c == '/' then
    match rest with
    | '/' :: more => some ([], (more.dropWhile (· != '\n')).drop 1)
    | '*' :: more => (closeComment? more).map fun rest => ([], rest)
    | rest => some ([.op "/"], rest)
  else if c == '#' then
    let (ts, rest) := operator c ['#'] rest
    let (word, rest) := rest.span isNameChar
    some (if word.isEmpty then ts else ts ++ [.name (String.ofList word)], rest)
  else if "()[]".toList.contains c || c == '{' || c == '}' then some ([.bracket c], rest)
  else if isNameChar c then
    let (word, rest) := (c :: rest).span isNameChar
    some ([nameToken (String.ofList word)], rest)
  else none

/-- All tokens of a text. The fuel is at least its length. -/
def tokens? (fuel : Nat) (cs : List Char) : Option (List Token) :=
  match fuel, cs with
  | _, [] => some []
  | 0, _ => none
  | fuel + 1, c :: rest => do
    let (ts, rest) ← next? fuel c rest
    let more ← tokens? fuel rest
    return ts ++ more

end FlowAudit.MergeField
