import FlowAudit.Json.Basic
import FlowAudit.Path
import FlowAudit.Web.Url

namespace FlowAudit.Web

structure Request where
  method : String
  /-- The path, and the query after a question mark. -/
  target : String
  body : List UInt8 := []
  deriving Inhabited

namespace Request

def parts (r : Request) : List Char × Option (List Char) := Url.cut '?' r.target.toList

def path? (r : Request) : Option String :=
  (Percent.unescape? .path r.parts.1).map fun bytes => String.ofList (Text.Utf8.decodeLossy bytes)

def pair? (cs : List Char) : Option (String × String) := do
  if cs.isEmpty || cs.contains ';' then none
  let (key, value) := Url.cut '=' cs
  let decode (cs : List Char) :=
    (Percent.unescape? .query cs).map fun bytes => String.ofList (Text.Utf8.decodeLossy bytes)
  return (← decode key, ← decode (value.getD []))

def query (r : Request) : List (String × String) :=
  ((r.parts.2.getD []).splitOn '&').filterMap pair?

def value? (r : Request) (name : String) : Option String :=
  (r.query.find? (·.1 == name)).map (·.2)

end Request

/-- What a response holds. -/
inductive Body where
  | json (j : Json)
  | text (s : String)
  deriving Inhabited

structure Response where
  status : Nat
  body : Body
  /-- Where the client is sent to, if anywhere. -/
  location : Option String := none
  deriving Inhabited

def escapeMarkup (s : String) : String :=
  String.join (s.toList.map fun c => match c with
    | '&' => "&amp;"
    | '<' => "&lt;"
    | '>' => "&gt;"
    | '"' => "&#34;"
    | '\'' => "&#39;"
    | c => String.singleton c)

namespace Response

def failure (status : Nat) (message : String) : Response :=
  { status := status, body := .json (.obj [("error", .str message)]) }

def notFound : Response := { status := 404, body := .text "404 page not found" }

/-- A path without needless parts, with the slash at its end if it has one. -/
def cleanPath (path : String) : String :=
  let clean := Path.clean path
  if path.endsWith "/" && !clean.endsWith "/" then clean ++ "/" else clean

/-- Sends the client to another path of the same query. Only what was asked for by `GET` is moved for
good, with a link to it. -/
def redirect (r : Request) (path : String) : Response :=
  let query := match r.parts.2 with
    | some query => "?" ++ String.ofList query
    | none => ""
  let location := cleanPath (Percent.escapeText .path path) ++ query
  let link := "<a href=\"" ++ escapeMarkup location ++ "\">Moved Permanently</a>.\n\n"
  if r.method == "GET" then { status := 301, body := .text link, location := some location }
  else { status := 307, body := .text "", location := some location }

end Response

end FlowAudit.Web
