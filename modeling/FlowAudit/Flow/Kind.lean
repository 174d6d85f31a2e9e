namespace FlowAudit

inductive StepKind where
  | recordCreate
  | recordUpdate
  | recordDelete
  | recordLookup
  | recordRollback
  | assignment
  | decision
  | loop
  | subflow
  | actionCall
  | screen
  deriving Inhabited, Repr, DecidableEq

namespace StepKind

def all : List StepKind :=
  [recordCreate, recordUpdate, recordDelete, recordLookup, recordRollback, assignment, decision,
    loop, subflow, actionCall, screen]

def name : StepKind → String
  | recordCreate => "RecordCreate"
  | recordUpdate => "RecordUpdate"
  | recordDelete => "RecordDelete"
  | recordLookup => "RecordLookup"
  | recordRollback => "RecordRollback"
  | assignment => "Assignment"
  | decision => "Decision"
  | loop => "Loop"
  | subflow => "Subflow"
  | actionCall => "ActionCall"
  | screen => "Screen"

def ofName? (s : String) : Option StepKind := all.find? (·.name == s)

def isDml (k : StepKind) : Bool := k = recordCreate || k = recordUpdate || k = recordDelete

def isSoql (k : StepKind) : Bool := k = recordLookup

def isRecordOperation (k : StepKind) : Bool := k.isDml || k.isSoql || k = recordRollback

end StepKind

end FlowAudit
