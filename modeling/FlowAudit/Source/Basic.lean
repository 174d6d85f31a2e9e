import FlowAudit.Failure
import FlowAudit.Flow.Definition
import FlowAudit.Table

namespace FlowAudit

structure Source where
  /-- The definition of a flow by its name. -/
  fetch : String → Except Failure Definition
  /-- The names of all flows in order, if the source can tell. -/
  list? : Option (Except Failure (List String)) := none
  deriving Inhabited

structure Memory where
  flows : Table Definition := []
  deriving Inhabited, Repr, DecidableEq

namespace Memory

def put (m : Memory) (d : Definition) : Memory := ⟨Table.insert d.name d m.flows⟩

def putContent (m : Memory) (name format : String) (content : List UInt8) : Memory :=
  m.put { name := name, format := format, content := content, version := { version := 1 }
          origin := "memory" }

def ofList (ds : List Definition) : Memory := ds.foldl put {}

/-- The definition of a flow. A name that is not held is looked up in the other source, if there is
one. -/
def fetch (m : Memory) (otherwise : Option Source) (name : String) : Except Failure Definition :=
  match Table.get? m.flows name with
  | some d => .ok d
  | none =>
    match otherwise with
    | some src => src.fetch name
    | none => .error (.notFound name)

def source (m : Memory) (otherwise : Option Source) : Source :=
  { fetch := m.fetch otherwise, list? := some (.ok (Table.keys m.flows)) }

end Memory

/-- The source when nobody waits for its answers any more: all it says is that it was canceled. -/
def Source.canceled (src : Source) : Source :=
  { fetch := fun _ => .error (.bare .canceled)
    list? := src.list?.map fun r => r.bind fun _ => .error (.bare .canceled) }

end FlowAudit
