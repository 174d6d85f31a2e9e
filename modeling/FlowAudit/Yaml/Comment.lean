import FlowAudit.Yaml.Cursor

namespace FlowAudit.Yaml.Cursor

def commentReach : Nat := 512

/-- How far ahead a comment begins, when nothing but blanks stands before it, or blanks and line
breaks. The list holds the characters from `offset` on. -/
def commentOffset (acrossLines : Bool) (offset : Nat) :
    List Char → Cursor → Except SyntaxError (Option Nat × Cursor)
  | [], c => do
    if offset < commentReach then return (none, ← c.need (offset + 1)) else return (none, c)
  | x :: rest, c => do
    if commentReach ≤ offset then return (none, c)
    let c ← c.need (offset + 1)
    if isBlank x || (acrossLines && (x == '\n' || x == '\r')) then
      commentOffset acrossLines (offset + 1) rest c
    else if x == '#' then return (some offset, c)
    else if acrossLines && isBreak x && offset + 1 < commentReach then
      return (none, ← c.need (offset + 2))
    else return (none, c)

/-- How far ahead the comment on a later line begins, from the end of a line. Only line feeds and
carriage returns are looked across. -/
def nextComment (c : Cursor) : Except SyntaxError (Option Nat × Cursor) :=
  match c.rest with
  | b :: rest =>
    if b == '\n' || b == '\r' then c.commentOffset true 1 rest else do return (none, ← c.need 2)
  | [] => do return (none, ← c.need 2)

def passTo (fuel target : Nat) (c : Cursor) : Except SyntaxError Cursor :=
  match fuel with
  | 0 => .ok c
  | fuel + 1 => do
    let c ← c.need 1
    if target ≤ c.index then return c
    else if c.atBreak then passTo fuel target (← c.skipBreak)
    else passTo fuel target c.skip

/-- Passes a comment and those on the lines after it. The fuel exceeds the length of the text. -/
def skipComments (fuel : Nat) (c : Cursor) : Except SyntaxError Cursor :=
  match fuel with
  | 0 => .ok c
  | fuel + 1 => do
    match ← (← c.skipWhile (!isBreak ·)).nextComment with
    | (some n, c) => skipComments fuel (← c.passTo (n + 1) (c.index + n))
    | (none, c) => return c

def skipLineComment (c : Cursor) : Except SyntaxError Cursor :=
  if c.isFresh then .ok c
  else do
    match ← c.commentOffset false 0 c.rest with
    | (some n, c) => (← c.passTo (n + 1) (c.index + n)).skipWhile (!isBreak ·)
    | (none, c) => return c

end FlowAudit.Yaml.Cursor
