import FlowAudit.Files.Tree
import FlowAudit.Text.Quoted
import FlowAudit.Web.Url

namespace FlowAudit.Database

/-- The place of a database without a server. -/
inductive Location where
  | memory
  | file (path : String)
  deriving Inhabited, Repr, DecidableEq

namespace Location

/-- The path in a URI that begins with `file:`. -/
def ofUri (cs : List Char) : String :=
  let written := cs.takeWhile fun c => c != '?' && c != '#'
  let path := match written with
    | '/' :: '/' :: rest => rest.dropWhile (· != '/')
    | rest => rest
  match Web.Percent.unescape? .path path with
  | some bytes => String.ofList (Text.Utf8.decodeLossy bytes)
  | none => String.ofList path

def ofText (s : String) : Location :=
  let path :=
    if s.startsWith "file:" then ofUri (s.toList.drop 5)
    else match Web.Url.cut '?' s.toList with
      | ([], _) => s
      | (path, _) => String.ofList path
  if path == ":memory:" || path == "" then .memory else .file path

end Location

/-- Where the file of a database is or will be, unless there is no directory for it or it is one
itself. -/
def filePlace? (t : Files.Tree) (path : String) : Option String :=
  let inside (place : List String) := "/" ++ "/".intercalate place
  match t.locate path with
  | .ok place =>
    match t.root.get? place with
    | some (.file _ _) => some (inside place)
    | _ => none
  | .error _ =>
    let name := Path.base path
    if name == "." || name == ".." || path.endsWith "/" then none
    else match t.locate (Path.dir path) with
      | .ok place =>
        if (t.root.get? place).any (·.isDirectory) then some (inside (place ++ [name])) else none
      | .error _ => none

/-- The key in `key=value` settings at which a server's settings stop making sense. -/
def badSetting? (fuel : Nat) (cs : List Char) : Option String :=
  match fuel, cs.dropWhile Text.isBlank with
  | 0, _ | _, [] => none
  | fuel + 1, cs =>
    let (key, rest) := cs.span fun c => !Text.isBlank c && c != '='
    match rest.dropWhile Text.isBlank with
    | '=' :: rest =>
      match rest.dropWhile Text.isBlank with
      | '\'' :: rest => badSetting? fuel ((rest.dropWhile (· != '\'')).drop 1)
      | rest => badSetting? fuel (rest.dropWhile fun c => !Text.isBlank c)
    | _ => some (String.ofList key)

def unreachable (dsn : String) : String :=
  if dsn.startsWith "postgres://" || dsn.startsWith "postgresql://" then
    "dial tcp: connect: connection refused"
  else match badSetting? (dsn.length + 1) dsn.toList with
    | some key => "missing \"=\" after " ++ Text.quote key ++ " in connection info string\""
    | none => "dial tcp: connect: connection refused"

end FlowAudit.Database
