import FlowAudit.Document.Basic
import FlowAudit.Json.Basic
import FlowAudit.Text.Character

namespace FlowAudit.Document

/-- A value that does not fit its place. -/
inductive Misfit where
  | scalarExpected
  | recordExpected
  deriving Inhabited, Repr, DecidableEq

def Misfit.message : Misfit → String
  | .scalarExpected => "expected a scalar"
  | .recordExpected => "expected an object"

/-- The field that a name means: the one spelt so, or else the one spelt so in another case. -/
def findField (fields : List Field) (name : String) : Option Field :=
  match fields.find? (·.1 == name) with
  | some f => some f
  | none => fields.find? fun f => Text.fold f.1 == Text.fold name

mutual

def applyJson (old : Option Document) : Shape → Json → Except Misfit Document
  | .leaf, .null => .ok (.leaf "")
  | .leaf, .bool b => .ok (.leaf (if b then "true" else "false"))
  | .leaf, .num literal => .ok (.leaf literal)
  | .leaf, .str s _ => .ok (.leaf s)
  | .leaf, _ => .error .scalarExpected
  | .record _, .null => .ok (old.getD (.record []))
  | .record fields, .obj members => do
    return .record (← applyMembers fields ((old.map Document.fields).getD []) members)
  | .record _, _ => .error .recordExpected

def applyItems (item : Shape) : List Json → Except Misfit (List Document)
  | [] => .ok []
  | j :: rest => do
    let d ← applyJson none item j
    return d :: (← applyItems item rest)

/-- A field that is repeated is applied again: texts and lists are replaced, and records are merged. -/
def applyMembers (fields : List Field) (old : Fields) : List (String × Json) → Except Misfit Fields
  | [] => .ok old
  | (name, j) :: rest =>
    match findField fields name with
    | none => applyMembers fields old rest
    | some (field, cardinality, shape) => do
      let content ← match cardinality, j with
        | .optional, .null | .many, .null => pure none
        | .many, .arr items => some <$> .many <$> applyItems shape items
        -- the only item of a list may stand for it
        | .many, j => some <$> .many <$> ([·]) <$> applyJson none shape j
        | _, j => some <$> applyJson (lookup field old) shape j
      applyMembers fields (put field content old) rest

end

def ofMembers (members : List (String × Json)) : Except Misfit Document :=
  .record <$> applyMembers Shape.flowFields [] members

end FlowAudit.Document
