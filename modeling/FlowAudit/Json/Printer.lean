import FlowAudit.Json.Basic
import FlowAudit.Text.Character
import FlowAudit.Text.Numeral

namespace FlowAudit.Json

def escapeChar (c : Char) : List Char :=
  let n := c.toNat
  if c == '"' || c == '\\' then ['\\', c]
  else if n == 8 then ['\\', 'b']
  else if n == 9 then ['\\', 't']
  else if n == 10 then ['\\', 'n']
  else if n == 12 then ['\\', 'f']
  else if n == 13 then ['\\', 'r']
  else if n < 0x20 || c == '<' || c == '>' || c == '&' || n == 0x2028 || n == 0x2029 then
    '\\' :: 'u' :: Text.hex 4 n
  else [c]

def quoteString (s : String) : String :=
  String.ofList ('"' :: s.toList.flatMap escapeChar ++ ['"'])

mutual

def compactAfter (before : String) : Json → String
  | .null => before ++ "null"
  | .bool true => before ++ "true"
  | .bool false => before ++ "false"
  | .num literal => before ++ literal
  | .str s _ => before ++ quoteString s
  | .arr items => compactItems (before ++ "[") items ++ "]"
  | .obj members => compactMembers (before ++ Text.openBrace) members ++ Text.closeBrace

def compactItems (before : String) : List Json → String
  | [] => before
  | [j] => compactAfter before j
  | j :: rest => compactItems (compactAfter before j ++ ",") rest

def compactMembers (before : String) : List (String × Json) → String
  | [] => before
  | [(name, j)] => compactAfter (before ++ quoteString name ++ ":") j
  | (name, j) :: rest =>
    compactMembers (compactAfter (before ++ quoteString name ++ ":") j ++ ",") rest

end

def compact (j : Json) : String := compactAfter "" j

def newline (level : Nat) : String :=
  String.ofList ('\n' :: List.replicate (2 * level) ' ')

mutual

def indented (level : Nat) : Json → String
  | .null => "null"
  | .bool true => "true"
  | .bool false => "false"
  | .num literal => literal
  | .str s _ => quoteString s
  | .arr [] => "[]"
  | .arr (j :: rest) =>
    "[" ++ newline (level + 1) ++ indented (level + 1) j ++ indentedItems (level + 1) rest ++
      newline level ++ "]"
  | .obj [] => Text.braces ""
  | .obj ((name, j) :: rest) =>
    Text.braces (newline (level + 1) ++ quoteString name ++ ": " ++ indented (level + 1) j ++
      indentedMembers (level + 1) rest ++ newline level)

def indentedItems (level : Nat) : List Json → String
  | [] => ""
  | j :: rest => "," ++ newline level ++ indented level j ++ indentedItems level rest

def indentedMembers (level : Nat) : List (String × Json) → String
  | [] => ""
  | (name, j) :: rest =>
    "," ++ newline level ++ quoteString name ++ ": " ++ indented level j ++
      indentedMembers level rest

end

def pretty (j : Json) : String := indented 0 j ++ "\n"

end FlowAudit.Json
