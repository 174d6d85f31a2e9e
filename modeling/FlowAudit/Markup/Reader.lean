import FlowAudit.Markup.Token
import FlowAudit.Text.Utf8

namespace FlowAudit.Markup

inductive Node where
  | text (s : String)
  | element (name : String) (children : List Node)
  deriving Inhabited, Repr, BEq

def ownText : List Node → String
  | [] => ""
  | .text s :: rest => s ++ ownText rest
  | .element _ _ :: rest => ownText rest

/-- An element whose end tag has not been read, with the children so far in reverse. -/
structure Open where
  name : QName
  children : List Node

def Open.add (node : Node) (o : Open) : Open := { o with children := node :: o.children }

def Open.close (o : Open) : Node := .element o.name.base o.children.reverse

/-- What is left to read after an element has ended: it is the answer, or a child of another one. -/
def finish (node : Node) : List Open → Node ⊕ List Open
  | [] => .inl node
  | o :: outer => .inr (o.add node :: outer)

def advance (opened : List Open) : Token → Except SyntaxError (Node ⊕ List Open)
  | .skipped => .ok (.inr opened)
  | .text cs =>
    match opened with
    | [] => .ok (.inr [])
    | o :: outer => .ok (.inr (o.add (.text (String.ofList cs)) :: outer))
  | .startTag name isEmpty =>
    if isEmpty then .ok (finish (.element name.base []) opened)
    else .ok (.inr (⟨name, []⟩ :: opened))
  | .endTag name =>
    match opened with
    | [] => .error (.mismatchedTag name.base)
    | o :: outer =>
      if o.name = name then .ok (finish o.close outer) else .error (.mismatchedTag name.base)

/-- Reads on until the first element has ended. The fuel exceeds the length of the text. -/
def readElement (fuel : Nat) (opened : List Open) (cs : List Char) : Except SyntaxError Node :=
  match fuel with
  | 0 => .error .unexpectedEnd
  | fuel + 1 =>
    if cs.isEmpty then .error .unexpectedEnd
    else do
      let (token, rest) ← readToken (fuel + 1) cs
      match ← advance opened token with
      | .inl node => return node
      | .inr opened => readElement fuel opened rest

def parse (cs : List Char) : Except SyntaxError Node := readElement (cs.length + 1) [] cs

/-- The first element of the bytes. An ill-formed byte counts as U+FFFE, which is legal nowhere that
characters are looked at. -/
def parseBytes (bytes : List UInt8) : Except SyntaxError Node :=
  parse ((Text.Utf8.decode bytes).map (·.getD '￾'))

end FlowAudit.Markup
