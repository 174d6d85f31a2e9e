import FlowAudit.Database.Basic
import FlowAudit.Source.Basic

namespace FlowAudit.Database

variable (db : Database) (isCanceled : Bool)

/-- The first number that 64 bits with a sign do not hold. Counting stops there, and what is there
cannot be read back. -/
def pastWords : Int := 0x8000000000000000

def ensureDefinitions : Except Failure Database := do
  (db.access isCanceled).mapError (.within ("creating " ++ definitionsTable))
  return { db with definitions := some (db.definitions.getD []) }

def findDefinition (name : String) : Except Failure (Option (StoredDefinition × Time)) := do
  db.access isCanceled
  match Table.get? (← db.needDefinitions) name with
  | none => return none
  | some d =>
    if pastWords ≤ d.version then throw (.database (.unreadableNumber 0 "version"))
    return some (d, ← d.lastModified.readBack d.zone 2 "last_modified")

def fetchDefinition (name : String) : Except Failure Definition := do
  let found ← (db.findDefinition isCanceled name).mapError
    (.within ("querying " ++ definitionsTable ++ " for " ++ name))
  match found with
  | none => throw (.notFound name)
  | some (d, modified) =>
    match Format.ofWord? d.format with
    | none => throw (.malformed (.storedFormat name d.format))
    | some f =>
      return {
        name := name, format := f.name, content := d.body, origin := definitionsTable
        version := { version := d.version, status := d.status, lastModified := modified } }

/-- Stores a definition. A new one in the place of an earlier one is its next version. The zone in which
the definition was changed may go by a name. -/
def putDefinition (now : Time) (d : Definition) (zone : String := "") : Except Failure Database := do
  let context := Failure.within ("storing definition " ++ d.name)
  (db.access isCanceled).mapError context
  let table ← db.needDefinitions.mapError context
  let version := match Table.get? table d.name with
    | some old => min (old.version + 1) pastWords
    -- only the first version is raised to one
    | none => if d.version.version < 1 then 1 else d.version.version
  let modified := d.version.lastModified
  let row : StoredDefinition :=
    { version := version, status := d.version.status
      lastModified := if modified.isZero then now else modified
      zone := if modified.isZero then "" else zone
      format := d.format, body := d.content }
  return { db with definitions := some (Table.insert d.name row table) }

def listDefinitions : Except Failure (List String) := do
  let context := Failure.within ("listing " ++ definitionsTable)
  (db.access isCanceled).mapError context
  return Table.keys (← db.needDefinitions.mapError context)

def source : Source :=
  { fetch := db.fetchDefinition isCanceled, list? := some (db.listDefinitions isCanceled) }

end FlowAudit.Database
