import FlowAudit.Yaml.Schema

namespace FlowAudit.Yaml

/-- How a text can be written in YAML. -/
inductive Style where
  | plain
  | single
  | double
  | literal
  deriving Inhabited, Repr, DecidableEq

def isLineBreak (c : Char) : Bool :=
  c == '\n' || c == '\r' || c.toNat == 0x85 || c.toNat == 0x2028 || c.toNat == 0x2029

def isWritable (c : Char) : Bool :=
  let n := c.toNat
  n == 0x0A || (0x20 ≤ n && n ≤ 0x7E) || (0xA0 ≤ n && n ≤ 0xFFFD && n != 0xFEFF)

def isIndicator (c : Char) : Bool := "#,[]&*!|>'\"%@`".toList.contains c || c == '{' || c == '}'

def isBlankOrEnd (cs : List Char) : Bool := cs.head?.all fun c => c == ' ' || c == '\t'

def hasInnerIndicator : Char → List Char → Bool
  | _, [] => false
  | before, c :: rest =>
    (c == ':' && isBlankOrEnd rest) ||
      (c == '#' && (before == ' ' || before == '\t' || before.toNat == 0 || isLineBreak before)) ||
      hasInnerIndicator c rest

def hasIndicator : List Char → Bool
  | [] => false
  | cs@(c :: rest) =>
    "---".toList.isPrefixOf cs || "...".toList.isPrefixOf cs || isIndicator c ||
      ((c == '?' || c == ':' || c == '-') && isBlankOrEnd rest) || hasInnerIndicator c rest

def hasPair (p q : Char → Bool) : List Char → Bool
  | a :: b :: rest => (p a && q b) || hasPair p q (b :: rest)
  | _ => false

def isBase60Tail : List Char → Bool
  | [] => true
  | '.' :: rest => rest.all fun c => c.isDigit || c == '_'
  | [':', a] => a.isDigit
  | ':' :: a :: b :: rest =>
    if b.isDigit then ('0' ≤ a && a ≤ '5') && isBase60Tail rest else a.isDigit && isBase60Tail (b :: rest)
  | _ => false

/-- Whether older readers take the text for a number in base 60. -/
def isBase60 (s : String) : Bool :=
  let cs := (Text.splitSign s.toList).2
  match cs with
  | c :: rest =>
    c.isDigit && match rest.dropWhile fun c => c.isDigit || c == '_' with
      | ':' :: more => isBase60Tail (':' :: more)
      | _ => false
  | [] => false

def readsAsText (s : String) : Bool :=
  match resolve .older true s with
  | .str _ => !isBase60 s
  | _ => false

def styleOf (isKey : Bool) (s : String) : Style :=
  let cs := s.toList
  let isSpace (c : Char) := c == ' '
  let edge := cs.head?.any isSpace || cs.getLast?.any isSpace
  let broken := cs.any isLineBreak
  let isSpecial := cs.any (!isWritable ·) || hasPair isSpace isLineBreak cs
  let singleAllowed := !isSpecial && !hasPair isLineBreak isSpace cs
  if s.contains '\n' then
    if isSpecial || cs.getLast?.any isSpace || isKey then .double else .literal
  else if !readsAsText s then .double
  else if isKey && broken then .double
  else if !edge && !broken && singleAllowed && !hasIndicator cs then .plain
  else if singleAllowed then .single
  else .double

end FlowAudit.Yaml
