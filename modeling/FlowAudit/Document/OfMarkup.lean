import FlowAudit.Document.Basic
import FlowAudit.Markup.Reader

namespace FlowAudit.Document

mutual

def applyChild (fields : List Field) (old : Fields) : Markup.Node → Fields
  | .text _ => old
  | .element name children =>
    match fields.find? (·.1 == name) with
    | none => old
    | some (field, cardinality, shape) =>
      let before := if cardinality = .many then none else lookup field old
      let single := match shape with
        | .leaf => .leaf (Markup.ownText children)
        | .record inner =>
          .record (applyChildren inner ((before.map Document.fields).getD []) children)
      let content := match cardinality with
        | .many => .many (((lookup field old).map Document.items).getD [] ++ [single])
        | _ => single
      put field (some content) old

def applyChildren (fields : List Field) (old : Fields) : List Markup.Node → Fields
  | [] => old
  | node :: rest => applyChildren fields (applyChild fields old node) rest

end

def ofChildren (children : List Markup.Node) : Document :=
  .record (applyChildren Shape.flowFields [] children)

end FlowAudit.Document
