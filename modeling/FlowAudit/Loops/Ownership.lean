import FlowAudit.Loops.Propagation

namespace FlowAudit.Loops

abbrev Owners := List (String × String)

namespace Owners

/-- The owner of a loop; an empty name is none. -/
def owner? (owners : Owners) (loop : String) : Option String :=
  ((owners.find? (·.1 == loop)).map (·.2)).filter (· != "")

theorem mem_names_of_owner? (owners : Owners) (a b : String) (h : owners.owner? a = some b) :
    a ∈ owners.map (·.1) := by
  obtain ⟨x, hfind, -⟩ := Option.map_eq_some_iff.mp (Option.filter_eq_some_iff.mp h).1
  have hx : x.1 = a := by simpa using List.find?_some hfind
  exact hx ▸ List.mem_map_of_mem (List.mem_of_find?_eq_some hfind)

def chain (owners : Owners) : Chain := ⟨owners.owner?, owners.map (·.1), owners.mem_names_of_owner?⟩

end Owners

def ownersOf (g : Graph) (context? : String → Option Context) : Owners :=
  g.loops.filterMap fun l =>
    match context? l.name with
    | some c => if c.isInLoop && c.loop != l.name then some (l.name, c.loop) else none
    | none => none

/-- Whether an element with the context runs inside the loop: its context names the loop, it was
reached through the loop, or the loop owns the one that its context names. -/
def nestedUnder (c : Context) (loop : String) (owners : Owners) : Bool :=
  c.isInLoop &&
    (c.loop == loop || c.path.contains loop || owners.chain.reaches loop [] c.loop)

end FlowAudit.Loops
