import FlowAudit.Json.Token

namespace FlowAudit.Json

def nextToken (cs : List Char) : Except SyntaxError (Option (Token × List Char)) :=
  match cs.dropWhile isSpace with
  | [] => .ok none
  | c :: rest => do return some (← readToken c rest)

def needToken (cs : List Char) : Except SyntaxError (Token × List Char) := do
  match ← nextToken cs with
  | some r => return r
  | none => throw .unexpectedEnd

mutual

/-- The value that begins with the token `t`. The fuel exceeds the number of tokens of the text. -/
def readValue (fuel depth : Nat) (t : Token) (cs : List Char) :
    Except SyntaxError (Json × List Char) :=
  match fuel with
  | 0 => .error .unexpectedEnd
  | fuel + 1 =>
    match t with
    | .literal v => .ok (v, cs)
    | .openArray =>
      if maxNesting ≤ depth then .error .tooDeep
      else do
        let (t, cs) ← needToken cs
        if t == .closeArray then return (.arr [], cs)
        readItems fuel (depth + 1) [] t cs
    | .openObject =>
      if maxNesting ≤ depth then .error .tooDeep
      else do
        let (t, cs) ← needToken cs
        if t == .closeObject then return (.obj [], cs)
        readMembers fuel (depth + 1) [] t cs
    | _ => .error .misplaced

def readItems (fuel depth : Nat) (done : List Json) (t : Token) (cs : List Char) :
    Except SyntaxError (Json × List Char) :=
  match fuel with
  | 0 => .error .unexpectedEnd
  | fuel + 1 => do
    let (v, cs) ← readValue fuel depth t cs
    let (t, cs) ← needToken cs
    match t with
    | .closeArray => return (.arr (v :: done).reverse, cs)
    | .comma =>
      let (t, cs) ← needToken cs
      readItems fuel depth (v :: done) t cs
    | _ => throw .misplaced

def readMembers (fuel depth : Nat) (done : List (String × Json)) (t : Token) (cs : List Char) :
    Except SyntaxError (Json × List Char) :=
  match fuel with
  | 0 => .error .unexpectedEnd
  | fuel + 1 =>
    match t with
    | .literal (.str name _) => do
      let (sep, cs) ← needToken cs
      if sep != .colon then throw .misplaced
      let (t, cs) ← needToken cs
      let (v, cs) ← readValue fuel depth t cs
      let (t, cs) ← needToken cs
      match t with
      | .closeObject => return (.obj ((name, v) :: done).reverse, cs)
      | .comma =>
        let (t, cs) ← needToken cs
        readMembers fuel depth ((name, v) :: done) t cs
      | _ => throw .misplaced
    | _ => .error .misplaced

end

def readFirst (cs : List Char) : Except SyntaxError (Json × List Char) := do
  let (t, rest) ← needToken cs
  readValue (2 * cs.length + 2) 0 t rest

def parse (cs : List Char) : Except SyntaxError Json := do
  let (v, rest) ← readFirst cs
  match rest.dropWhile isSpace with
  | [] => return v
  | _ => throw .trailing

def parseText (s : String) : Except SyntaxError Json := parse s.toList

end FlowAudit.Json
