namespace FlowAudit.Loops

/-- A partial function from name to name, with the names that it leads from. -/
structure Chain where
  next : String → Option String
  names : List String
  mem_names : ∀ a b, next a = some b → a ∈ names

namespace Chain

variable (ch : Chain)

def unseen (seen : List String) : List String := ch.names.filter (!seen.contains ·)

theorem unseen_cons (seen : List String) (name : String) :
    ch.unseen (name :: seen) = (ch.unseen seen).filter fun n => !(n == name) := by
  simp [unseen, List.filter_filter, Bool.not_or, Bool.beq_eq_decide_eq]

theorem length_unseen_cons_lt {seen : List String} {a b : String} (hnext : ch.next a = some b)
    (hseen : ¬seen.contains a) : (ch.unseen (a :: seen)).length < (ch.unseen seen).length := by
  have hmem : a ∈ ch.unseen seen :=
    List.mem_filter.mpr ⟨ch.mem_names a b hnext, by simpa using hseen⟩
  rw [unseen_cons]
  exact List.length_filter_lt_length_iff_exists.mpr ⟨a, hmem, by simp⟩

/-- Whether the target is met in one step or more from a name. No name is left twice. -/
def reaches (target : String) (seen : List String) (name : String) : Bool :=
  if _hseen : seen.contains name then false
  else match _hnext : ch.next name with
    | none => false
    | some n => n == target || reaches target (name :: seen) n
termination_by (ch.unseen seen).length
decreasing_by exact length_unseen_cons_lt ch _hnext _hseen

end Chain

end FlowAudit.Loops
