import FlowAudit.Failure
import FlowAudit.Table
import FlowAudit.Time

namespace FlowAudit

/-- A run as it is stored. -/
structure Run where
  id : String
  flow : String
  flowVersion : Int
  checksum : String
  analyzerVersion : String
  score : Int
  shouldBulkify : Bool
  cumulativeComplexity : Int
  /-- The analysis as JSON text. -/
  result : String
  createdAt : Time
  deriving Inhabited, Repr, DecidableEq

/-- A definition as it is stored. -/
structure StoredDefinition where
  version : Int
  status : String
  lastModified : Time
  /-- The name that the zone of this time goes by, if it has one. -/
  zone : String := ""
  format : String
  body : List UInt8
  deriving Inhabited, Repr, DecidableEq

structure Database where
  isClosed : Bool := false
  /-- Whether its file holds something else. -/
  isForeign : Bool := false
  /-- The runs in the order in which they were added, if there is a table for them. -/
  runs : Option (List Run) := none
  /-- The definitions by name, if there is a table for them. -/
  definitions : Option (Table StoredDefinition) := none
  deriving Inhabited, Repr, DecidableEq

namespace Database

def runsTable : String := "flowscope_runs"

def definitionsTable : String := "flowscope_flow_definitions"

/-- What stands in the way of any access: a database that was closed, a caller that gave up, or a file
of another kind. -/
def access (db : Database) (isCanceled : Bool) : Except Failure Unit :=
  if db.isClosed then .error (.database .closed)
  else if isCanceled then .error (.bare .canceled)
  else if db.isForeign then .error (.database .notDatabase)
  else .ok ()

def needRuns (db : Database) : Except Failure (List Run) :=
  match db.runs with
  | some rs => .ok rs
  | none => .error (.database (.noTable runsTable))

def needDefinitions (db : Database) : Except Failure (Table StoredDefinition) :=
  match db.definitions with
  | some t => .ok t
  | none => .error (.database (.noTable definitionsTable))

end Database

namespace Time

def zoneDigits (offset : Int) : String :=
  let minutes := offset.natAbs / 60
  (if offset ≤ -60 then "-" else "+") ++ Text.padded 2 (minutes / 60) ++ Text.padded 2 (minutes % 60)

def zoneName (zone : String) (offset : Int) : String :=
  if zone != "" then zone else if offset == 0 then "UTC" else zoneDigits offset

/-- The text that a time is stored as; rows are ordered by it. -/
def storedText (t : Time) (zone : String := "") : String :=
  t.clockText " " ++ fraction t.nanos ++ " " ++ zoneDigits t.offset ++ " " ++ zoneName zone t.offset

def isSignedHour : List Char → Bool
  | sign :: digits => (sign == '+' || sign == '-') && (Text.readDigits? 10 digits).any (· ≤ 23)
  | [] => false

/-- Whether a word without blanks is taken for the name of a zone. Most names are three capitals, or four or
five of which the last is a T. -/
def isZoneName (name : String) : Bool :=
  match name.toList with
  | ['U', 'T', 'C'] | ['C', 'h', 'S', 'T'] | ['M', 'e', 'S', 'T'] | ['W', 'I', 'T', 'A'] => true
  | 'U' :: 'T' :: 'C' :: _ => false
  | 'G' :: 'M' :: 'T' :: rest => rest.isEmpty || isSignedHour rest
  | cs =>
    3 ≤ cs.length && isSignedHour cs ||
      cs.all Char.isUpper && (cs.length == 3 || cs.getLast? == some 'T' && (cs.length == 4 || cs.length == 5))

/-- What calendar and clock show is kept, and the whole minutes of the offset, which is not looked at where
the zone is called UTC. -/
def restored (t : Time) (zone : String) : Time :=
  if zoneName zone t.offset = "UTC" then { t with seconds := t.seconds + t.offset, offset := 0 }
  else t.inMinutes.toUtc

/-- The time read back from a column. A year has to be of four digits, and the digits of a zone without a
name are taken for hours, of which there are at most 23. -/
def readBack (zone : String) (index : Nat) (column : String) (t : Time) : Except Failure Time :=
  if 0 ≤ t.year ∧ t.year ≤ 9999 ∧ t.offset.natAbs < 25 * 3600 ∧
      isZoneName (zoneName zone t.offset) = true then
    .ok (t.restored zone)
  else .error (.database (.unreadableTime index column))

end Time

end FlowAudit
