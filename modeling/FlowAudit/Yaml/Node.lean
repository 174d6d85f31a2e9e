import FlowAudit.Yaml.Token

namespace FlowAudit.Yaml

inductive Node where
  /-- A scalar with its tag, which is empty when it has none. A plain one is not quoted. -/
  | scalar (tag : String) (plain : Bool) (text : String)
  | sequence (items : List Node)
  | mapping (entries : List (Node × Node))
  /-- Another mention of the node with an anchor, which is missing inside the node itself. -/
  | alias (name : String) (target : Option Node)
  deriving Inhabited, Repr

def Node.empty : Node := .scalar "" true ""

/-- A node that an anchor names; it is missing as long as the node is being read. -/
structure Anchor where
  name : String
  node : Option Node

structure Composer where
  lexemes : List Lexeme
  /-- The error at which the tokens stop. -/
  stop : Option SyntaxError
  handles : List (String × String) := []
  /-- The anchors so far, the latest last. -/
  anchors : Array Anchor := #[]

abbrev Compose := StateT Composer (Except SyntaxError)

namespace Compose

def peek : Compose Token := do
  let s ← get
  match s.lexemes with
  | t :: _ => return t.token
  | [] => throw (s.stop.getD ⟨.unexpectedEnd, 0⟩)

def advance : Compose Unit := modify fun s => { s with lexemes := s.lexemes.tail }

def next : Compose Token := do advance; peek

def fail {α : Type} (p : Problem) : Compose α := do
  throw ⟨p, ((← get).lexemes.head?.map (·.line)).getD 0⟩

def openAnchor (name : String) : Compose Nat := do
  let s ← get
  set { s with anchors := s.anchors.push ⟨name, none⟩ }
  return s.anchors.size

def closeAnchor (position : Nat) (node : Node) : Compose Unit :=
  modify fun s => { s with anchors := s.anchors.modify position fun a => { a with node := some node } }

def lookup (name : String) : Compose Node := do
  match (← get).anchors.findRev? (·.name == name) with
  | some a => return .alias name a.node
  | none => throw ⟨.unknownAnchor name, 0⟩

def expandTag (handle suffix : String) : Compose String := do
  if handle == "" then return suffix
  match (← get).handles.find? (·.1 == handle) with
  | some (_, expansion) =>
    if expansion ++ suffix == "" then fail .unknownHandle else return expansion ++ suffix
  | none => fail .unknownHandle

def properties : Compose (Option String × String) := do
  match ← peek with
  | .anchor name =>
    match ← next with
    | .tag handle suffix => do
      advance
      return (some name, ← expandTag handle suffix)
    | _ => return (some name, "")
  | .tag handle suffix =>
    match ← next with
    | .anchor name => do
      advance
      return (some name, ← expandTag handle suffix)
    | _ => return (none, ← expandTag handle suffix)
  | _ => return (none, "")

mutual

/-- One node. A sequence that is not indented may stand as the value of a block mapping only. -/
def node (fuel : Nat) (block indentless : Bool) : Compose Node :=
  match fuel with
  | 0 => fail .unexpectedEnd
  | fuel + 1 => do
    if let .alias name ← peek then
      advance
      return ← lookup name
    let (anchor, tag) ← properties
    match anchor with
    | none => content fuel block indentless tag false
    | some name =>
      let position ← openAnchor name
      let n ← content fuel block indentless tag true
      closeAnchor position n
      return n

def content (fuel : Nat) (block indentless : Bool) (tag : String) (named : Bool) : Compose Node :=
  match fuel with
  | 0 => fail .unexpectedEnd
  | fuel + 1 => do
    match ← peek with
    | .blockEntry =>
      if indentless then return .sequence (← indentlessItems fuel [])
    | .scalar text plain =>
      advance
      return .scalar tag plain text
    | .openSequence =>
      advance
      return .sequence (← flowItems fuel true [])
    | .openMapping =>
      advance
      return .mapping (← flowEntries fuel true [])
    | .blockSequence =>
      if block then
        advance
        return .sequence (← blockItems fuel [])
    | .blockMapping =>
      if block then
        advance
        return .mapping (← blockEntries fuel [])
    | _ => pure ()
    if named || tag != "" then return .scalar tag true "" else fail .missingContent

def blockItems (fuel : Nat) (done : List Node) : Compose (List Node) :=
  match fuel with
  | 0 => fail .unexpectedEnd
  | fuel + 1 => do
    match ← peek with
    | .blockEntry =>
      let t ← next
      if t = .blockEntry || t = .blockEnd then blockItems fuel (.empty :: done)
      else do
        let n ← node fuel true false
        blockItems fuel (n :: done)
    | .blockEnd =>
      advance
      return done.reverse
    | _ => fail .missingEntry

def indentlessItems (fuel : Nat) (done : List Node) : Compose (List Node) :=
  match fuel with
  | 0 => fail .unexpectedEnd
  | fuel + 1 => do
    match ← peek with
    | .blockEntry =>
      let t ← next
      if t = .blockEntry || t = .key || t = .value || t = .blockEnd then
        indentlessItems fuel (.empty :: done)
      else do
        let n ← node fuel true false
        indentlessItems fuel (n :: done)
    | _ => return done.reverse

def blockEntries (fuel : Nat) (done : List (Node × Node)) : Compose (List (Node × Node)) :=
  match fuel with
  | 0 => fail .unexpectedEnd
  | fuel + 1 => do
    match ← peek with
    | .key =>
      let t ← next
      let k ← if t = .key || t = .value || t = .blockEnd then pure .empty else node fuel true true
      let v ← blockValue fuel
      blockEntries fuel ((k, v) :: done)
    | .blockEnd =>
      advance
      return done.reverse
    | _ => fail .missingKey

def blockValue (fuel : Nat) : Compose Node :=
  match fuel with
  | 0 => fail .unexpectedEnd
  | fuel + 1 => do
    if (← peek) = .value then
      let t ← next
      if t = .key || t = .value || t = .blockEnd then return .empty
      node fuel true true
    else return .empty

def flowItems (fuel : Nat) (first : Bool) (done : List Node) : Compose (List Node) :=
  match fuel with
  | 0 => fail .unexpectedEnd
  | fuel + 1 => do
    let t ← peek
    let t ← if t = .closeSequence || first then pure t
      else if t = .flowEntry then next
      else fail .openSequence
    match t with
    | .closeSequence =>
      advance
      return done.reverse
    | .key =>
      advance
      let entry ← flowPair fuel
      flowItems fuel false (.mapping [entry] :: done)
    | _ =>
      let n ← node fuel false false
      flowItems fuel false (n :: done)

/-- A single entry written as an item of a flow sequence. A key left empty takes the token after it
with it. -/
def flowPair (fuel : Nat) : Compose (Node × Node) :=
  match fuel with
  | 0 => fail .unexpectedEnd
  | fuel + 1 => do
    let t ← peek
    let k ← if t = .value || t = .flowEntry || t = .closeSequence then do advance; pure .empty
      else node fuel false false
    if (← peek) = .value then
      let t ← next
      if t = .flowEntry || t = .closeSequence then return (k, .empty)
      return (k, ← node fuel false false)
    else return (k, .empty)

def flowEntries (fuel : Nat) (first : Bool) (done : List (Node × Node)) :
    Compose (List (Node × Node)) :=
  match fuel with
  | 0 => fail .unexpectedEnd
  | fuel + 1 => do
    let t ← peek
    let t ← if t = .closeMapping || first then pure t
      else if t = .flowEntry then next
      else fail .openMapping
    match t with
    | .closeMapping =>
      advance
      return done.reverse
    | .key =>
      let t ← next
      let k ← if t = .value || t = .flowEntry || t = .closeMapping then pure .empty
        else node fuel false false
      let v ← flowValue fuel
      flowEntries fuel false ((k, v) :: done)
    | _ =>
      let k ← node fuel false false
      flowEntries fuel false ((k, .empty) :: done)

def flowValue (fuel : Nat) : Compose Node :=
  match fuel with
  | 0 => fail .unexpectedEnd
  | fuel + 1 => do
    if (← peek) = .value then
      let t ← next
      if t = .flowEntry || t = .closeMapping then return .empty
      node fuel false false
    else return .empty

end

/-- The directives before a document; only version 1.1 is understood. -/
def directives (fuel : Nat) (versioned : Bool) (own : List (String × String)) :
    Compose (List (String × String)) :=
  match fuel with
  | 0 => fail .unexpectedEnd
  | fuel + 1 => do
    match ← peek with
    | .version major minor =>
      if versioned then fail .repeatedDirective
      if major != 1 || minor != 1 then fail .incompatibleVersion
      advance
      directives fuel true own
    | .handle name expansion =>
      if own.any (·.1 == name) then fail .repeatedDirective
      advance
      directives fuel versioned (own ++ [(name, expansion)])
    | _ => return own

def defaultHandles : List (String × String) := [("!", "!"), ("!!", "tag:yaml.org,2002:")]

/-- The first document, or nothing when the text holds none. What follows the document is read as far
as its first token. -/
def document : Compose (Option Node) := do
  let fuel := 4 * (← get).lexemes.length + 8
  let first ← peek
  if first = .streamEnd then return none
  let own ← directives fuel false []
  modify fun s => { s with handles := own ++ defaultHandles }
  let explicit := match first with
    | .version _ _ | .handle _ _ | .documentStart => true
    | _ => false
  let root ←
    if explicit then do
      if (← peek) ≠ .documentStart then fail .missingDocumentStart
      match ← next with
      | .version _ _ | .handle _ _ | .documentStart | .documentEnd | .streamEnd => pure .empty
      | _ => node fuel true false
    else node fuel true false
  let _ ← peek
  return some root

end Compose

def compose (tokens : List Lexeme) (stop : Option SyntaxError) : Except SyntaxError (Option Node) :=
  (·.1) <$> Compose.document.run { lexemes := tokens, stop := stop }

end FlowAudit.Yaml
