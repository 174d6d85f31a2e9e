import FlowAudit.Files.Tree
import FlowAudit.Source.Basic
import FlowAudit.Document.Parse
import FlowAudit.Table

namespace FlowAudit

/-- A directory of definitions in a tree of files. -/
structure Directory where
  tree : Files.Tree
  path : String

namespace Directory

variable (d : Directory)

def isFile (path : String) : Bool :=
  match d.tree.find path with
  | .ok e => !e.isDirectory
  | .error _ => false

def locateEnding (name : String) : List String → Except Failure String
  | [] => .error (.notFound (name ++ " (searched " ++ d.path ++ ")"))
  | ending :: rest =>
    let path := Path.join d.path (name ++ ending)
    match d.tree.stat path with
    | .ok e => if e.isDirectory then locateEnding name rest else .ok path
    | .error e =>
      if e.reason = .missing then locateEnding name rest
      else .error (.within ("stat " ++ path) (.plain e.message))

/-- The file of a flow: the name itself when it is the path of a definition file, or else a file of
the directory with that name and a known ending. -/
def locate (name : String) : Except Failure String :=
  if name == "" then .error (.notFound "empty flow name")
  else if (Format.ofPath? name).isSome && d.isFile name then .ok name
  else d.locateEnding name definitionEndings

def fetch (name : String) : Except Failure Definition := do
  let path ← d.locate name
  match d.tree.find path with
  | .ok (.file content modified) =>
    return {
      name := flowNameOfPath path
      format := ((Format.ofPath? path).map Format.name).getD ""
      content := content
      version := { version := 1, lastModified := modified.toUtc }
      origin := path }
  | .ok (.directory _) =>
    throw (.within ("reading flow file " ++ path) (.plain ("read " ++ path ++ ": is a directory")))
  | .error e =>
    throw (.within ("reading flow file " ++ path) (.plain ("open " ++ path ++ ": " ++ e.message)))

/-- The names of the flows in the directory; hidden files do not count. -/
def list : Except Failure (List String) := do
  let entries ← (d.tree.list d.path).mapError fun e =>
    Failure.within "reading flows directory" (.plain e.message)
  let files := entries.filter fun (n, e) =>
    !e.isDirectory && (Format.ofPath? n).isSome && n.toList.head? != some '.'
  return (Table.ofList (files.map fun (n, _) => (flowNameOfPath n, ()))).keys

def source : Source := { fetch := d.fetch, list? := some d.list }

end Directory

def Metadata.ofFile (t : Files.Tree) (path : String) : Except Failure Metadata := do
  let content ← (t.read path).mapError fun e => Failure.within "reading flow file" (.plain e.message)
  (Metadata.ofContent (flowNameOfPath path) (.detect path content) content).mapError .malformed

end FlowAudit
