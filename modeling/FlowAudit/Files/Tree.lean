import FlowAudit.Flow.Definition

namespace FlowAudit.Files

inductive Entry where
  | file (content : List UInt8) (modified : Time)
  | directory (entries : List (String × Entry))
  deriving Inhabited

/-- Why a path leads nowhere. -/
inductive PathError where
  | missing
  | notDirectory
  | isDirectory
  | nameTooLong
  | invalidName
  deriving Inhabited, Repr, DecidableEq

def PathError.message : PathError → String
  | missing => "no such file or directory"
  | notDirectory => "not a directory"
  | isDirectory => "is a directory"
  | nameTooLong => "file name too long"
  | invalidName => "invalid argument"

/-- A failed access: what was tried, on which path, and why it failed. -/
structure AccessError where
  operation : String
  path : String
  reason : PathError
  deriving Inhabited, Repr, DecidableEq

def AccessError.message (e : AccessError) : String :=
  e.operation ++ " " ++ e.path ++ ": " ++ e.reason.message

namespace Entry

def isDirectory : Entry → Bool
  | directory _ => true
  | file _ _ => false

def entries : Entry → List (String × Entry)
  | directory es => es
  | file _ _ => []

def child? (e : Entry) (name : String) : Option Entry :=
  (e.entries.find? (·.1 == name)).map (·.2)

def get? (e : Entry) : List String → Option Entry
  | [] => some e
  | n :: rest => (e.child? n).bind fun c => c.get? rest

/-- Puts an entry at the names, with the directories on the way. A directory put where one is stays
as it is. -/
def put (new : Entry) : List String → Entry → Entry
  | [], old => if new.isDirectory && old.isDirectory then old else new
  | n :: rest, old =>
    let inner := put new rest ((old.child? n).getD (.directory []))
    .directory (old.entries.filter (·.1 != n) ++ [(n, inner)])

end Entry

/-- A tree of files with the directory that relative paths start from. -/
structure Tree where
  root : Entry := .directory []
  /-- The names from the root to the working directory. -/
  working : List String := []
  deriving Inhabited

def maxNameLength : Nat := 255

def maxPathLength : Nat := 4095

namespace Tree

/-- Follows the names of a path from a place, whose names stand with the last one first. -/
def follow (t : Tree) : List String → List String → Except PathError (List String)
  | place, [] => .ok place
  | place, n :: rest =>
    match t.root.get? place.reverse with
    | none => .error .missing
    | some e =>
      -- even `.` and an empty name lead on from directories only
      if !e.isDirectory then .error .notDirectory
      else if n == "" || n == "." then follow t place rest
      else if n == ".." then follow t place.tail rest
      else if maxNameLength < n.utf8ByteSize then .error .nameTooLong
      else if (e.child? n).isNone then .error .missing
      else follow t (n :: place) rest

def locate (t : Tree) (path : String) : Except PathError (List String) :=
  if path.contains '\x00' then .error .invalidName
  else if path == "" then .error .missing
  else if maxPathLength < path.utf8ByteSize then .error .nameTooLong
  else
    let start := if Path.isAbs path then [] else t.working.reverse
    (t.follow start (Path.names path)).map List.reverse

def find (t : Tree) (path : String) : Except PathError Entry := do
  let place ← t.locate path
  match t.root.get? place with
  | some e => return e
  | none => throw .missing

def stat (t : Tree) (path : String) : Except AccessError Entry :=
  (t.find path).mapError (⟨"stat", path, ·⟩)

def read (t : Tree) (path : String) : Except AccessError (List UInt8) := do
  match ← (t.find path).mapError (⟨"open", path, ·⟩) with
  | .file content _ => return content
  | .directory _ => throw ⟨"read", path, .isDirectory⟩

def list (t : Tree) (path : String) : Except AccessError (List (String × Entry)) := do
  match ← (t.find path).mapError (⟨"open", path, ·⟩) with
  | .file _ _ => throw ⟨"open", path, .notDirectory⟩
  | .directory es => return es.mergeSort fun a b => a.1 ≤ b.1

def exists? (t : Tree) (path : String) : Bool := (t.find path).isOk

def put (t : Tree) (path : String) (e : Entry) : Tree :=
  { t with root := e.put ((Path.names path).filter fun n => n != "" && n != ".") t.root }

def workingPath (t : Tree) : String := "/" ++ "/".intercalate t.working

end Tree

end FlowAudit.Files
