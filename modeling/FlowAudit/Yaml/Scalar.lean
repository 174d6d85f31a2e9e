import FlowAudit.Text.Numeral
import FlowAudit.Yaml.Cursor

namespace FlowAudit.Yaml

/-- Line breaks and blanks met between two runs of characters. The first break and the later ones
are kept apart, since the first alone folds into a blank. -/
structure Gap where
  broken : Bool := false
  blanks : List Char := []
  first : List Char := []
  later : List Char := []

namespace Gap

def fold (g : Gap) : List Char :=
  if g.broken then
    if g.first == ['\n'] then (if g.later.isEmpty then [' '] else g.later) else g.first ++ g.later
  else g.blanks

/-- Takes one break or blank into the gap. Blanks after a break are dropped. -/
def extend (g : Gap) (c : Cursor) : Except SyntaxError (Gap × Cursor) :=
  if c.atBreak then do
    let (b, next) := (← c.need 2).takeBreak
    if g.broken then return ({ g with later := g.later ++ b }, next)
    else return ({ g with broken := true, blanks := [], first := b }, next)
  else if g.broken then return (g, c.skip)
  else return ({ g with blanks := g.blanks ++ c.rest.head?.toList }, c.skip)

end Gap

/-- Takes the blanks and breaks that follow. In a plain scalar a tab may not stand in for the
indentation of a later line. -/
def takeGap (fuel : Nat) (indent : Option Int) (g : Gap) (c : Cursor) :
    Except SyntaxError (Gap × Cursor) :=
  match fuel with
  | 0 => .ok (g, c)
  | fuel + 1 =>
    if !(c.atBlank || c.atBreak) then .ok (g, c)
    else if c.sees '\t' && g.broken && indent.any ((c.column : Int) < ·) then c.fail .badIndentation
    else do
      let (g, c) ← g.extend c
      takeGap fuel indent g (← c.need 1)

def endsPlain (inFlow : Bool) (c : Cursor) : Bool :=
  match c.peek with
  | none => true
  | some x =>
    isBlank x || isBreak x || (x == ':' && c.blankAfter 1) ||
      (inFlow && (x == ',' || x == '?' || x == '[' || x == ']' || x == '{' || x == '}'))

def takePlainRun (fuel : Nat) (inFlow : Bool) (acc : List Char) (c : Cursor) :
    Except SyntaxError (List Char × Cursor) :=
  match fuel with
  | 0 => .ok (acc, c)
  | fuel + 1 =>
    if endsPlain inFlow c then .ok (acc, c)
    else do takePlainRun fuel inFlow (c.rest.head?.toList ++ acc) (← c.skip.need 2)

/-- The lines of a plain scalar. Tells also whether a line break was met last. -/
def takePlain (fuel : Nat) (inFlow : Bool) (indent : Int) (acc : List Char) (g : Gap) (c : Cursor) :
    Except SyntaxError (List Char × Bool × Cursor) :=
  match fuel with
  | 0 => .ok (acc, g.broken, c)
  | fuel + 1 => do
    let c ← c.need 4
    if c.atDocumentMark || c.sees '#' then return (acc, g.broken, c)
    let stopped := endsPlain inFlow c
    let (acc, c) ← if stopped then pure (acc, c)
      else takePlainRun fuel inFlow (g.fold.reverse ++ acc) c
    let g := if stopped then g else {}
    if !(c.atBlank || c.atBreak) then return (acc, g.broken, c)
    let (g, c) ← takeGap fuel (some indent) g (← c.need 1)
    if !inFlow && (c.column : Int) < indent then return (acc, g.broken, c)
    takePlain fuel inFlow indent acc g c

def readPlain (fuel : Nat) (inFlow : Bool) (indent : Int) (c : Cursor) :
    Except SyntaxError (String × Bool × Cursor) := do
  let (acc, broken, c) ← takePlain fuel inFlow (indent + 1) [] {} c
  return (String.ofList acc.reverse, broken, c)

/-- The characters of one-letter escapes. The newer edition has one for the slash. -/
def escape? (edition : Edition) (c : Char) : Option Char :=
  match c with
  | '0' => some '\x00'
  | 'a' => some '\x07'
  | 'b' => some '\x08'
  | 't' | '\t' => some '\t'
  | 'n' => some '\n'
  | 'v' => some '\x0b'
  | 'f' => some '\x0c'
  | 'r' => some '\r'
  | 'e' => some '\x1b'
  | ' ' => some ' '
  | '"' => some '"'
  | '\'' => some '\''
  | '\\' => some '\\'
  | 'N' => some (Char.ofNat 0x85)
  | '_' => some (Char.ofNat 0xA0)
  | 'L' => some (Char.ofNat 0x2028)
  | 'P' => some (Char.ofNat 0x2029)
  | '/' => if edition = .newer then some '/' else none
  | _ => none

def escapeWidth? : Char → Option Nat
  | 'x' => some 2
  | 'u' => some 4
  | 'U' => some 8
  | _ => none

def readEscape (edition : Edition) (c : Cursor) : Except SyntaxError (Char × Cursor) :=
  match c.peek with
  | none => c.fail .badEscape
  | some x =>
    match escapeWidth? x with
    | some width => do
      let c ← c.skip.need width
      let digits := c.rest.take width
      match Text.readDigits? 16 digits with
      | some n =>
        if digits.length < width || (0xD800 ≤ n && n ≤ 0xDFFF) || 0x10FFFF < n then
          c.fail .badEscape
        else return (Char.ofNat n, c.skipMany width)
      | none => c.fail .badEscape
    | none =>
      match escape? edition x with
      | some e => .ok (e, c.skip)
      | none => c.fail .badEscape

/-- A run of characters of a quoted scalar, in reverse before `acc`. It stops at a blank, a break or
the closing quote; an escaped line break also ends it and drops the blanks that follow. -/
def takeQuotedRun (fuel : Nat) (single : Bool) (edition : Edition) (acc : List Char) (c : Cursor) :
    Except SyntaxError (List Char × Bool × Cursor) :=
  match fuel with
  | 0 => .ok (acc, false, c)
  | fuel + 1 =>
    match c.rest with
    | [] => .ok (acc, false, c)
    | x :: rest =>
      if isBlank x || isBreak x then .ok (acc, false, c)
      else if single && x == '\'' then
        if rest.head? == some '\'' then do
          takeQuotedRun fuel single edition ('\'' :: acc) (← (c.skipMany 2).need 2)
        else .ok (acc, false, c)
      else if !single && x == '"' then .ok (acc, false, c)
      else if !single && x == '\\' then
        if rest.head?.any isBreak then do return (acc, true, (← c.need 3).skip.takeBreak.2)
        else do
          let (e, c) ← readEscape edition c.skip
          takeQuotedRun fuel single edition (e :: acc) (← c.need 2)
      else do takeQuotedRun fuel single edition (x :: acc) (← c.skip.need 2)

def takeQuoted (fuel : Nat) (single : Bool) (edition : Edition) (acc : List Char) (c : Cursor) :
    Except SyntaxError (List Char × Cursor) :=
  match fuel with
  | 0 => c.fail .unexpectedEnd
  | fuel + 1 => do
    let c ← c.need 4
    if c.atDocumentMark then c.fail .documentMark
    else if c.atEnd then c.fail .unexpectedEnd
    else
      let (acc, escaped, c) ← takeQuotedRun fuel single edition acc c
      let c ← c.need 1
      if c.sees (if single then '\'' else '"') then return (acc, c.skip)
      let (g, c) ← takeGap fuel none { broken := escaped } c
      takeQuoted fuel single edition (g.fold.reverse ++ acc) c

def readQuoted (fuel : Nat) (single : Bool) (edition : Edition) (c : Cursor) :
    Except SyntaxError (String × Cursor) := do
  let (acc, c) ← takeQuoted fuel single edition [] c.skip
  return (String.ofList acc.reverse, c)

/-- What happens to the line breaks at the end of a block scalar. -/
inductive Chomping where
  | strip
  | clip
  | keep
  deriving Inhabited, Repr, DecidableEq

def chomping? : Char → Option Chomping
  | '+' => some .keep
  | '-' => some .strip
  | _ => none

def takeChomping (c : Cursor) : Option (Chomping × Cursor) :=
  (c.peek.bind chomping?).map fun m => (m, c.skip)

/-- The digit of an indentation indicator, which may not be zero. -/
def takeIncrement (c : Cursor) : Except SyntaxError (Nat × Cursor) :=
  match c.peek with
  | some d =>
    if d == '0' then c.fail .badBlockHeader
    else if d.isDigit then .ok (d.toNat - '0'.toNat, c.skip)
    else .ok (0, c)
  | none => .ok (0, c)

/-- The header of a block scalar after its first character: chomping and indentation in either
order, then nothing but a comment on the line. -/
def readBlockHeader (c : Cursor) : Except SyntaxError (Chomping × Nat × Cursor) := do
  let c ← c.need 1
  let (mode, increment, c) ← match takeChomping c with
    | some (mode, c) => do
      let (n, c) ← takeIncrement (← c.need 1)
      pure (mode, n, c)
    | none => do
      let (n, c) ← takeIncrement c
      if n == 0 then pure (.clip, 0, c)
      else
        let c ← c.need 1
        match takeChomping c with
        | some (mode, c) => pure (mode, n, c)
        | none => pure (.clip, n, c)
  let c ← c.skipComment
  if c.atEnd || c.atBreak then return (mode, increment, ← c.skipBreak)
  c.fail .badBlockHeader

def skipIndentOver (indent : Nat) : List Char → Cursor → Except SyntaxError Cursor
  | ' ' :: rest, c =>
    if indent == 0 || c.column < indent then do skipIndentOver indent rest (← c.skip.need 1)
    else .ok c
  | _, c => .ok c

/-- Passes the indentation of a line; an indentation of zero stands for one not known yet. -/
def skipIndent (indent : Nat) (c : Cursor) : Except SyntaxError Cursor := do
  let c ← c.need 1
  skipIndentOver indent c.rest c

/-- The empty lines before the next line of a block scalar, with the widest indentation among
them. -/
def takeEmptyLines (fuel indent widest : Nat) (breaks : List Char) (c : Cursor) :
    Except SyntaxError (Nat × List Char × Cursor) :=
  match fuel with
  | 0 => .ok (widest, breaks, c)
  | fuel + 1 => do
    let c ← skipIndent indent c
    let widest := max widest c.column
    if (indent == 0 || c.column < indent) && c.sees '\t' then c.fail .badIndentation
    else if !c.atBreak then return (widest, breaks, c)
    else
      let (b, c) := (← c.need 2).takeBreak
      takeEmptyLines fuel indent widest (breaks ++ b) c

/-- The lines of a block scalar. `first` is the break after the line read last, and `later` are the
breaks of the empty lines after it. -/
def takeBlockLines (fuel : Nat) (literal : Bool) (mode : Chomping) (indent : Nat)
    (acc first later : List Char) (afterBlank : Bool) (c : Cursor) :
    Except SyntaxError (List Char × Cursor) :=
  match fuel with
  | 0 => .ok (acc, c)
  | fuel + 1 =>
    if c.column == indent && !c.atEnd then do
      let startsBlank := c.atBlank
      let joint :=
        if !literal && !afterBlank && !startsBlank && first == ['\n'] then
          if later.isEmpty then [' '] else []
        else first
      let (line, c) ← c.takeWhile (!isBreak ·)
      let (first, c) := (← c.need 2).takeBreak
      let acc := line.reverse ++ later.reverse ++ joint.reverse ++ acc
      let (_, later, c) ← takeEmptyLines fuel indent 0 [] c
      takeBlockLines fuel literal mode indent acc first later startsBlank c
    else
      let tail := match mode with
        | .strip => []
        | .clip => first
        | .keep => first ++ later
      .ok (tail.reverse ++ acc, c)

def readBlock (fuel : Nat) (literal : Bool) (outer : Int) (c : Cursor) :
    Except SyntaxError (String × Cursor) := do
  let (mode, increment, c) ← readBlockHeader c.skip
  let given := if increment == 0 then 0 else (max outer 0).toNat + increment
  let (widest, later, c) ← takeEmptyLines fuel given 0 [] c
  let indent := if given == 0 then max (max widest (outer + 1).toNat) 1 else given
  let (acc, c) ← takeBlockLines fuel literal mode indent [] [] later false (← c.need 1)
  return (String.ofList acc.reverse, c)

end FlowAudit.Yaml
