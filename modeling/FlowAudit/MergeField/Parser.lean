import FlowAudit.MergeField.Expr
import FlowAudit.MergeField.Token

namespace FlowAudit.MergeField

def maxNodes : Nat := 10000

structure Parser where
  tokens : List Token
  /-- The number of nodes built. -/
  nodes : Nat := 0
  /-- The number of predicates around the present place. -/
  predicates : Nat := 0

abbrev Parse := StateT Parser Option

namespace Parse

def fail {α : Type} : Parse α := fun _ => none

def peek? : Parse (Option Token) := return (← get).tokens.head?

def advance : Parse Unit := modify fun p => { p with tokens := p.tokens.tail }

def sees (t : Token) : Parse Bool := return (← peek?) == some t

def accept (t : Token) : Parse Bool := do
  if ← sees t then
    advance
    return true
  return false

def expect (t : Token) : Parse Unit := do
  if !(← accept t) then fail

def spend (n : Nat) : Parse Unit := do
  let p ← get
  if maxNodes < p.nodes + n then fail
  set { p with nodes := p.nodes + n }

def build (e : Expr) : Parse Expr := do
  spend 1
  return e

end Parse

open Parse

def unary? : String → Option Nat
  | "not" | "!" => some 50
  | "-" | "+" => some 90
  | _ => none

def binary? : String → Option Nat
  | "|" => some 0
  | "or" | "||" => some 10
  | "and" | "&&" => some 15
  | "==" | "!=" | "<" | ">" | ">=" | "<=" | "in" | "matches" | "contains" | "startsWith" | "endsWith" =>
    some 20
  | ".." => some 25
  | "+" | "-" => some 30
  | "*" | "/" | "%" => some 60
  | "**" | "^" => some 100
  | "??" => some 500
  | _ => none

def isRightAssociative (s : String) : Bool := s == "**" || s == "^"

def mayNegate (s : String) : Bool :=
  ["contains", "matches", "startsWith", "endsWith", "in"].contains s

/-- The operators that may be chained, as in `a < b < c`. -/
def isComparison (s : String) : Bool := ["<", ">", ">=", "<="].contains s

/-- What an argument of a builtin with a predicate is, and whether it may be left out. -/
structure Argument where
  isPredicate : Bool
  isOptional : Bool := false

/-- The arguments of the builtins that take a predicate. -/
def predicateArguments? (s : String) : Option (List Argument) :=
  if ["all", "none", "any", "one", "filter", "map", "find", "findIndex", "findLast", "findLastIndex",
      "groupBy"].contains s then some [⟨false, false⟩, ⟨true, false⟩]
  else if ["count", "sum"].contains s then some [⟨false, false⟩, ⟨true, true⟩]
  else if ["sortBy", "reduce"].contains s then some [⟨false, false⟩, ⟨true, false⟩, ⟨false, true⟩]
  else none

def isBuiltin (s : String) : Bool :=
  ["len", "type", "abs", "ceil", "floor", "round", "int", "float", "string", "trim", "trimPrefix",
    "trimSuffix", "upper", "lower", "split", "splitAfter", "replace", "repeat", "join", "indexOf",
    "lastIndexOf", "hasPrefix", "hasSuffix", "max", "min", "mean", "median", "toJSON", "fromJSON",
    "toBase64", "fromBase64", "now", "duration", "date", "timezone", "first", "last", "get", "take",
    "keys", "values", "toPairs", "fromPairs", "reverse", "uniq", "concat", "flatten", "sort",
    "bitand", "bitor", "bitxor", "bitnand", "bitshl", "bitshr", "bitushr", "bitnot"].contains s

mutual

/-- Expressions divided by semicolons, of which the last may be followed by one. -/
def sequence (fuel : Nat) : Parse Expr :=
  match fuel with
  | 0 => fail
  | fuel + 1 => do
    let first ← expression fuel 0
    let rest ← sequenceRest fuel []
    if rest.isEmpty then return first else build (.compound (first :: rest))

def sequenceRest (fuel : Nat) (done : List Expr) : Parse (List Expr) :=
  match fuel with
  | 0 => fail
  | fuel + 1 => do
    if !(← accept (.op ";")) then return done.reverse
    if (← peek?).isNone then return done.reverse
    let e ← expression fuel 0
    sequenceRest fuel (e :: done)

def expression (fuel strength : Nat) : Parse Expr :=
  match fuel with
  | 0 => fail
  | fuel + 1 => do
    if strength == 0 && (← accept (.op "let")) then return ← declaration fuel
    let left ← primary fuel
    let e ← operations fuel strength "" left
    if strength == 0 then conditional fuel e else return e

def declaration (fuel : Nat) : Parse Expr :=
  match fuel with
  | 0 => fail
  | fuel + 1 => do
    match ← peek? with
    | some (.name _) => advance
    | _ => fail
    expect (.op "=")
    let value ← expression fuel 0
    expect (.op ";")
    let rest ← sequence fuel
    build (.compound [value, rest])

/-- The operators that follow an operand, with what they apply to. Another operator may not follow an
operand of `??`. The operator after `not` goes by its word alone, so a text literal may spell it. -/
def operations (fuel strength : Nat) (previous : String) (left : Expr) : Parse Expr :=
  match fuel with
  | 0 => fail
  | fuel + 1 => do
    let ts := (← get).tokens
    if ts.head? == some (.op "not") then
      match (ts.drop 1).head?.bind Token.word? with
      | some s =>
        if !mayNegate s then fail
        if (binary? s).all (· < strength) then return left
        advance
        advance
        if previous == "??" then fail
        let e ← build (.compound [left, ← expression fuel 21])
        return ← operations fuel strength s (← build (.compound [e]))
      | none => fail
    match ts with
    | .op s :: _ =>
      match binary? s with
      | none => return left
      | some own =>
        if own < strength then return left
        advance
        if s == "|" then
          match ← peek? with
          | some (.name f) =>
            advance
            let e ← call fuel f [left]
            operations fuel strength s e
          | _ => fail
        else if previous == "??" && s != "??" then fail
        else if isComparison s then
          let e ← comparison fuel left none
          operations fuel strength s e
        else
          let right ← expression fuel (if isRightAssociative s then own else own + 1)
          operations fuel strength s (← build (.compound [left, right]))
    | _ => return left

def comparison (fuel : Nat) (left : Expr) (root : Option Expr) : Parse Expr :=
  match fuel with
  | 0 => fail
  | fuel + 1 => do
    let right ← expression fuel 21
    let e ← build (.compound [left, right])
    let root ← match root with
      | none => pure e
      | some r => build (.compound [r, e])
    match ← peek? with
    | some (.op s) =>
      if isComparison s then
        advance
        comparison fuel right (some root)
      else return root
    | _ => return root

def conditional (fuel : Nat) (condition : Expr) : Parse Expr :=
  match fuel with
  | 0 => fail
  | fuel + 1 => do
    if !(← accept (.op "?")) then return condition
    let branches ← if ← accept (.op ":") then do pure [condition, ← expression fuel 0]
      else do
        let yes ← expression fuel 0
        expect (.op ":")
        pure [yes, ← expression fuel 0]
    conditional fuel (← build (.compound (condition :: branches)))

def primary (fuel : Nat) : Parse Expr :=
  match fuel with
  | 0 => fail
  | fuel + 1 => do
    match ← peek? with
    | none => fail
    | some (.number) =>
      advance
      build .literal
    | some (.text s) =>
      advance
      suffixes fuel (← build (.text s))
    | some (.name s) =>
      advance
      if s == "true" || s == "false" || s == "nil" then build .literal
      else if ← sees (.bracket '(') then suffixes fuel (← call fuel s [])
      else suffixes fuel (← build (.name s))
    | some (.bracket '(') =>
      advance
      let e ← sequence fuel
      expect (.bracket ')')
      suffixes fuel e
    | some (.bracket '[') =>
      advance
      let items ← listItems fuel ']' []
      expect (.bracket ']')
      suffixes fuel (← build (.compound items))
    | some (.bracket _) => fail
    | some (.op s) =>
      match unary? s with
      | some own =>
        advance
        let e ← expression fuel own
        suffixes fuel (← build (.compound [e]))
      | none =>
        if s == "::" then
          advance
          match ← peek? with
          | some (.name f) =>
            advance
            suffixes fuel (← call fuel f [])
          | _ => fail
        else if (← get).predicates == 0 then fail
        else if s == "#" then
          advance
          if let some (.name _) ← peek? then advance
          suffixes fuel (← build .literal)
        else if s == "." then suffixes fuel (← build .literal)
        else fail

/-- Expressions divided by commas up to a closing bracket, which is left. -/
def listItems (fuel : Nat) (close : Char) (done : List Expr) : Parse (List Expr) :=
  match fuel with
  | 0 => fail
  | fuel + 1 => do
    if ← sees (.bracket close) then return done.reverse
    if !done.isEmpty then
      expect (.op ",")
      if ← sees (.bracket close) then return done.reverse
    let e ← expression fuel 0
    listItems fuel close (e :: done)

def call (fuel : Nat) (f : String) (given : List Expr) : Parse Expr :=
  match fuel with
  | 0 => fail
  | fuel + 1 => do
    match predicateArguments? f with
    | some wanted =>
      expect (.bracket '(')
      let arguments ← predicateCall fuel true (wanted.drop given.length) []
      let _ ← accept (.op ",")
      expect (.bracket ')')
      build (.compound (given ++ arguments))
    | none =>
      if !isBuiltin f then spend 1
      expect (.bracket '(')
      let arguments ← listItems fuel ')' []
      expect (.bracket ')')
      let callee := if isBuiltin f then [] else [Expr.name f]
      build (.compound (callee ++ given ++ arguments))

def predicateCall (fuel : Nat) (first : Bool) (wanted : List Argument) (done : List Expr) :
    Parse (List Expr) :=
  match fuel with
  | 0 => fail
  | fuel + 1 => do
    match wanted with
    | [] => return done.reverse
    | a :: rest =>
      if ← sees (.bracket ')') then
        if a.isOptional then return done.reverse else fail
      if !first then expect (.op ",")
      let e ← if a.isPredicate then predicate fuel else expression fuel 0
      predicateCall fuel false rest (e :: done)

def predicate (fuel : Nat) : Parse Expr :=
  match fuel with
  | 0 => fail
  | fuel + 1 => do
    modify fun p => { p with predicates := p.predicates + 1 }
    let e ← expression fuel 0
    if ← sees (.op ";") then fail
    modify fun p => { p with predicates := p.predicates - 1 }
    build (.compound [e])

def suffixes (fuel : Nat) (e : Expr) : Parse Expr :=
  match fuel with
  | 0 => fail
  | fuel + 1 => do
    match (← get).tokens with
    | .bracket c :: _ =>
      if c == '[' then
        advance
        suffixes fuel (← index fuel false e)
      else return e
    | .op s :: t :: _ =>
      if s == "." || s == "?." then
        advance
        advance
        if s == "?." && t == .bracket '[' then suffixes fuel (← index fuel true e)
        else suffixes fuel (← memberOf fuel (s == "?.") t e)
      else return e
    | [.op s] => if s == "." || s == "?." then fail else return e
    | _ => return e

/-- A member by the name in the token `t`, or a call of it. A member of a chain joins the chain. -/
def memberOf (fuel : Nat) (isOptional : Bool) (t : Token) (e : Expr) : Parse Expr :=
  match fuel with
  | 0 => fail
  | fuel + 1 => do
    let property ← match t with
      | .name s => build (.text s)
      | .op s => if isKeyword s then build (.text s) else fail
      | _ => fail
    let (base, inChain) := match e with
      | .chain inner => (inner, true)
      | e => (e, false)
    let m ← build (.member base property)
    let m ← if ← accept (.bracket '(') then do
        let arguments ← listItems fuel ')' []
        expect (.bracket ')')
        build (.compound (m :: arguments))
      else pure m
    if inChain || isOptional then build (.chain m) else return m

def index (fuel : Nat) (isOptional : Bool) (e : Expr) : Parse Expr :=
  match fuel with
  | 0 => fail
  | fuel + 1 => do
    if ← accept (.op ":") then
      let last ← sliceEnd fuel
      let e ← build (.compound (e :: last))
      expect (.bracket ']')
      return e
    let start ← expression fuel 0
    if ← accept (.op ":") then
      let last ← sliceEnd fuel
      let e ← build (.compound (e :: start :: last))
      expect (.bracket ']')
      return e
    let m ← build (.member e start)
    let m ← if isOptional then build (.chain m) else pure m
    expect (.bracket ']')
    return m

def sliceEnd (fuel : Nat) : Parse (List Expr) :=
  match fuel with
  | 0 => fail
  | fuel + 1 => do
    if ← sees (.bracket ']') then return []
    return [← expression fuel 0]

end

def parse? (s : String) : Option Expr := do
  let ts ← tokens? s.length s.toList
  let fuel := 8 * ts.length + 16
  let (e, p) ← (sequence fuel).run { tokens := ts }
  if p.tokens.isEmpty then some e else none

end FlowAudit.MergeField
