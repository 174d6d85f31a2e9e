import FlowAudit.Document.Shape
import FlowAudit.Text.Character

namespace FlowAudit

inductive Document where
  | leaf (text : String)
  | record (fields : List (String × Document))
  | many (items : List Document)
  deriving Inhabited, Repr, BEq

namespace Document

abbrev Fields := List (String × Document)

def lookup (name : String) (fields : Fields) : Option Document :=
  (fields.find? (·.1 == name)).map (·.2)

def put (name : String) (content : Option Document) (fields : Fields) : Fields :=
  fields.filter (·.1 != name) ++ (content.map (name, ·)).toList

def fields : Document → Fields
  | record fs => fs
  | _ => []

def get? (name : String) (d : Document) : Option Document := lookup name d.fields

def text : Document → String
  | leaf s => s
  | _ => ""

def rawText (name : String) (d : Document) : String := ((d.get? name).map text).getD ""

def textOf (name : String) (d : Document) : String := Text.trim (d.rawText name)

def items : Document → List Document
  | many ds => ds
  | _ => []

def listOf (name : String) (d : Document) : List Document := ((d.get? name).map items).getD []

end Document

end FlowAudit
