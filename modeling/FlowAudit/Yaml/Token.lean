import FlowAudit.Yaml.Scalar

namespace FlowAudit.Yaml

inductive Token where
  | streamEnd
  | version (major minor : Nat)
  | handle (name expansion : String)
  | documentStart
  | documentEnd
  | blockSequence
  | blockMapping
  | blockEnd
  | openSequence
  | closeSequence
  | openMapping
  | closeMapping
  | blockEntry
  | flowEntry
  | key
  | value
  | alias (name : String)
  | anchor (name : String)
  | tag (handle suffix : String)
  | scalar (text : String) (plain : Bool)
  deriving Inhabited, Repr, DecidableEq

/-- A token with the line on which it begins. -/
structure Lexeme where
  token : Token
  line : Nat
  deriving Inhabited, Repr, DecidableEq

def readVersionPart (c : Cursor) : Except SyntaxError (Nat × Cursor) := do
  let (digits, next) ← c.takeWhile Char.isDigit
  if 2 < digits.length then c.fail .badDirective
  else match Text.readDigits? 10 digits with
    | some n => return (n, next)
    | none => c.fail .badDirective

def isUriChar (c : Char) : Bool := isWordChar c || ";/?:@&=+$,.!~*'()[]".toList.contains c

def readOctet (c : Cursor) : Except SyntaxError (UInt8 × Cursor) := do
  let c ← c.need 3
  match c.rest with
  | '%' :: a :: b :: _ =>
    match Text.readDigits? 16 [a, b] with
    | some n => return (UInt8.ofNat n, c.skipMany 3)
    | none => c.fail .badTag
  | _ => c.fail .badTag

def readContinuations : Nat → Cursor → Except SyntaxError (List UInt8 × Cursor)
  | 0, c => return ([], c)
  | n + 1, c => do
    let (b, c) ← readOctet c
    if b / 64 != 2 then c.fail .badTag
    else
      let (bs, c) ← readContinuations n c
      return (b :: bs, c)

def readUriEscape (c : Cursor) : Except SyntaxError (List Char × Cursor) := do
  let (b, c) ← readOctet c
  match continuationCount? b with
  | none => c.fail .badTag
  | some n =>
    let (bs, c) ← readContinuations n c
    return (Text.Utf8.decodeLossy (b :: bs), c)

def takeUri (fuel : Nat) (acc : List Char) (c : Cursor) : Except SyntaxError (List Char × Cursor) :=
  match fuel with
  | 0 => .ok (acc, c)
  | fuel + 1 => do
    let c ← c.need 1
    match c.peek with
    | none => return (acc, c)
    | some x =>
      if x == '%' then
        let (cs, c) ← readUriEscape c
        takeUri fuel (cs.reverse ++ acc) c
      else if isUriChar x then takeUri fuel (x :: acc) c.skip
      else return (acc, c)

/-- A URI after the characters `head` of it; one without any characters is refused. -/
def readUri (fuel : Nat) (head : List Char) (c : Cursor) : Except SyntaxError (List Char × Cursor) := do
  let (acc, next) ← takeUri fuel [] c
  if acc.isEmpty && head.isEmpty then next.fail .badTag
  else return (head.drop 1 ++ acc.reverse, next)

/-- A handle: `!`, or a word between two of them. Outside directives the second may be missing. -/
def readHandle (directive : Bool) (c : Cursor) : Except SyntaxError (List Char × Cursor) := do
  let c ← c.need 1
  if !c.sees '!' then c.fail .badTag
  else
    let (word, next) ← c.skip.takeWhile isWordChar
    if next.sees '!' then return ('!' :: word ++ ['!'], next.skip)
    else if directive && !word.isEmpty then next.fail .badTag
    else return ('!' :: word, next)

def readVerbatimTag (fuel : Nat) (c : Cursor) : Except SyntaxError (Token × Cursor) := do
  let (suffix, c) ← readUri fuel [] c
  if c.sees '>' then return (.tag "" (String.ofList suffix), c.skip) else c.fail .badTag

def readShortTag (fuel : Nat) (c : Cursor) : Except SyntaxError (Token × Cursor) := do
  let (handle, c) ← readHandle false c
  if 1 < handle.length && handle.getLast? == some '!' then
    let (suffix, c) ← readUri fuel [] c
    return (.tag (String.ofList handle) (String.ofList suffix), c)
  else
    let (suffix, c) ← readUri fuel handle c
    if suffix.isEmpty then return (.tag "" "!", c)
    else return (.tag "!" (String.ofList suffix), c)

def readTag (fuel : Nat) (c : Cursor) : Except SyntaxError (Token × Cursor) := do
  let c ← c.need 2
  let (token, c) ← match c.rest with
    | '!' :: '<' :: _ => readVerbatimTag fuel (c.skipMany 2)
    | _ => readShortTag fuel c
  let c ← c.need 1
  if c.blankAfter 0 then return (token, c) else c.fail .badTag

def readAnchor (c : Cursor) : Except SyntaxError (String × Cursor) := do
  let (name, next) ← c.skip.takeWhile isWordChar
  if !name.isEmpty &&
      (next.blankAfter 0 || next.peek.any fun x => x == '}' || "?:,]%@`".toList.contains x) then
    return (String.ofList name, next)
  else next.fail .badAnchor

def readVersion (c : Cursor) : Except SyntaxError (Token × Cursor) := do
  let (major, c) ← readVersionPart (← c.skipWhile isBlank)
  if c.sees '.' then
    let (minor, c) ← readVersionPart c.skip
    return (.version major minor, c)
  else c.fail .badDirective

def readHandleExpansion (fuel : Nat) (c : Cursor) : Except SyntaxError (Token × Cursor) := do
  let (handle, c) ← readHandle true (← c.skipWhile isBlank)
  let c ← c.need 1
  if !c.atBlank then c.fail .badDirective
  else
    let (expansion, c) ← readUri fuel [] (← c.skipWhile isBlank)
    if c.blankAfter 0 then return (.handle (String.ofList handle) (String.ofList expansion), c)
    else c.fail .badDirective

def readDirective (fuel : Nat) (c : Cursor) : Except SyntaxError (Token × Cursor) := do
  let (name, c) ← c.skip.takeWhile isWordChar
  if name.isEmpty || !c.blankAfter 0 then c.fail .badDirective
  else
    let (token, c) ← if name == "YAML".toList then readVersion c
      else if name == "TAG".toList then readHandleExpansion fuel c
      else c.fail .badDirective
    let c ← c.skipComment
    if c.atEnd || c.atBreak then return (token, ← c.skipBreak) else c.fail .badDirective

end FlowAudit.Yaml
