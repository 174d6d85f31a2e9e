import FlowAudit.Proofs.Store.Saving

namespace FlowAudit.Store

variable {idOf : Nat → String} {s : Store} {q : Request}

-- in a transaction that was begun before, a row that is refused leaves the table that was made for it
example : (({ begun := some {} } : Store).answer (fun _ ↦ "1") {
      analysis := some (.node { name := "Order" } []), checksum := "c", now := .zero
      options.isForced := true
      faults := fun st ↦ if st = .addRow then some (.plain "connection lost") else none }).2.database.runs =
    some [] := rfl

end FlowAudit.Store
