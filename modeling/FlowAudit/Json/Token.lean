import FlowAudit.Json.Basic
import FlowAudit.Text.Numeral

namespace FlowAudit.Json

inductive Token where
  | openObject
  | closeObject
  | openArray
  | closeArray
  | colon
  | comma
  | literal (value : Json)
  deriving Inhabited, Repr, BEq

/-- Why a text is not JSON. -/
inductive SyntaxError where
  | unexpectedEnd
  | unexpected (c : Char)
  | badEscape
  | controlCharacter
  | badNumber
  | badWord (word : String)
  | misplaced
  | tooDeep
  | trailing
  deriving Inhabited, Repr, DecidableEq

def SyntaxError.message : SyntaxError → String
  | .unexpectedEnd => "unexpected end of input"
  | .unexpected c => "unexpected character " ++ String.ofList [c]
  | .badEscape => "invalid escape in string"
  | .controlCharacter => "control character in string"
  | .badNumber => "invalid number"
  | .badWord word => "unknown word " ++ word
  | .misplaced => "misplaced token"
  | .tooDeep => "nested too deeply"
  | .trailing => "text after the value"

def isSpace (c : Char) : Bool := c == ' ' || c == '\t' || c == '\n' || c == '\r'

def isHighSurrogate (n : Nat) : Bool := 0xD800 ≤ n && n < 0xDC00
def isLowSurrogate (n : Nat) : Bool := 0xDC00 ≤ n && n < 0xE000

/-- A piece of a string: a character, or the unit that a `\u` escape gives. -/
inductive Piece where
  | char (c : Char)
  | unit (n : Nat)
  deriving Inhabited, Repr, DecidableEq

/-- The characters of the pieces, in reverse before `acc`. A unit that is a high surrogate takes the
low one that follows it, and a surrogate that stands alone is replaced. -/
def joinPieces (acc : List Char) : List Piece → List Char
  | [] => acc
  | .char c :: rest => joinPieces (c :: acc) rest
  | .unit n :: .unit m :: rest =>
    if isHighSurrogate n && isLowSurrogate m then
      joinPieces (Char.ofNat (0x10000 + (n - 0xD800) * 0x400 + (m - 0xDC00)) :: acc) rest
    else joinPieces (loneUnit n :: acc) (.unit m :: rest)
  | .unit n :: rest => joinPieces (loneUnit n :: acc) rest
where
  loneUnit (n : Nat) : Char :=
    if isHighSurrogate n || isLowSurrogate n then '�' else Char.ofNat n

def simpleEscape? : Char → Option Char
  | '"' => some '"'
  | '\\' => some '\\'
  | '/' => some '/'
  | 'b' => some '\x08'
  | 'f' => some '\x0c'
  | 'n' => some '\n'
  | 'r' => some '\r'
  | 't' => some '\t'
  | _ => none

/-- The pieces of a string up to its closing quote, in reverse before `acc`, with what follows it. -/
def readPieces (acc : List Piece) : List Char → Except SyntaxError (List Piece × List Char)
  | [] => .error .unexpectedEnd
  | c :: rest =>
    if c == '"' then .ok (acc, rest)
    else if c == '\\' then
      match rest with
      | [] => .error .unexpectedEnd
      | e :: rest =>
        if e == 'u' then
          match rest with
          | h₁ :: h₂ :: h₃ :: h₄ :: rest =>
            match Text.readDigits? 16 [h₁, h₂, h₃, h₄] with
            | some n => readPieces (.unit n :: acc) rest
            | none => .error .badEscape
          | _ => .error .badEscape
        else match simpleEscape? e with
          | some c => readPieces (.char c :: acc) rest
          | none => .error .badEscape
    else if c.toNat < 0x20 then .error .controlCharacter
    else readPieces (.char c :: acc) rest

def readString (cs : List Char) : Except SyntaxError (String × Bool × List Char) := do
  let (pieces, rest) ← readPieces [] cs
  return (String.ofList (joinPieces [] pieces.reverse).reverse,
    (cs.takeWhile (· != '"')).contains '\\', rest)

def takeDigits (cs : List Char) : List Char × List Char := cs.span Char.isDigit

/-- The digits before the point: a zero alone, or a run that begins with another digit. -/
def readWhole? : List Char → Option (List Char × List Char)
  | '0' :: rest => some (['0'], rest)
  | cs => match takeDigits cs with
    | ([], _) => none
    | (ds, rest) => some (ds, rest)

def readFraction? : List Char → Option (List Char × List Char)
  | '.' :: rest => match takeDigits rest with
    | ([], _) => none
    | (ds, rest) => some ('.' :: ds, rest)
  | cs => some ([], cs)

def readExponent? : List Char → Option (List Char × List Char)
  | [] => some ([], [])
  | e :: rest =>
    if e == 'e' || e == 'E' then
      let (sign, rest) := match rest with
        | '+' :: r => (['+'], r)
        | '-' :: r => (['-'], r)
        | r => ([], r)
      match takeDigits rest with
      | ([], _) => none
      | (ds, rest) => some (e :: sign ++ ds, rest)
    else some ([], e :: rest)

def readNumber? (cs : List Char) : Option (String × List Char) := do
  let (sign, cs) := match cs with
    | '-' :: rest => (['-'], rest)
    | cs => ([], cs)
  let (whole, cs) ← readWhole? cs
  let (fraction, cs) ← readFraction? cs
  let (exponent, cs) ← readExponent? cs
  return (String.ofList (sign ++ whole ++ fraction ++ exponent), cs)

def word? : String → Option Json
  | "true" => some (.bool true)
  | "false" => some (.bool false)
  | "null" => some .null
  | _ => none

def punctuation? : Char → Option Token
  | '{' => some .openObject
  | '}' => some .closeObject
  | '[' => some .openArray
  | ']' => some .closeArray
  | ':' => some .colon
  | ',' => some .comma
  | _ => none

def readToken (c : Char) (rest : List Char) : Except SyntaxError (Token × List Char) :=
  match punctuation? c with
  | some t => .ok (t, rest)
  | none =>
    if c == '"' then do
      let (s, isEscaped, rest) ← readString rest
      return (.literal (.str s isEscaped), rest)
    else if c == '-' || c.isDigit then
      match readNumber? (c :: rest) with
      | some (literal, rest) => .ok (.literal (.num literal), rest)
      | none => .error .badNumber
    else if c.isAlpha then
      let (cs, rest) := (c :: rest).span Char.isAlpha
      let word := String.ofList cs
      match word? word with
      | some v => .ok (.literal v, rest)
      | none => .error (.badWord word)
    else .error (.unexpected c)

end FlowAudit.Json
