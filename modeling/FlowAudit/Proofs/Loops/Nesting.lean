import FlowAudit.Proofs.Loops.Charges

namespace FlowAudit.Loops

open Relation

variable {owners : Owners} {g : Graph} {opts : Options} {s : State} {a b : String} {c : Context}

def OwnerStep (owners : Owners) (a b : String) : Prop := owners.lookup a = some b ∧ b ≠ ""

def LoopStep (s : State) (a b : String) : Prop := ∃ c, s.context? a = some c ∧ c.loop = b

theorem find?_map_eq_lookup (owners : Owners) (a : String) :
    (owners.find? (·.1 == a)).map (·.2) = owners.lookup a := by
  induction owners with
  | nil => rfl
  | cons e owners ih =>
    obtain ⟨k, v⟩ := e
    by_cases h : k = a
    · simp [h]
    · have hne : (a == k) = false := by simpa using Ne.symm h
      simp [h, hne, ih, List.lookup_cons]

theorem points_owner?_iff : Points owners.owner? a b ↔ OwnerStep owners a b := by
  rw [Points, Owners.owner?, find?_map_eq_lookup, Option.filter_eq_some_iff, OwnerStep]
  simp

theorem points_state_owner?_iff : Points s.owner? a b ↔ LoopStep s a b := State.owner?_eq_some

theorem names_of_run (hg : g.Distinct) (hnames : ∀ e ∈ g.elements, e.name ≠ "")
    (hrun : ReflTransGen (Moves g opts) {} s) (hc : s.context? a = some c) : a ≠ "" ∧ c.loop ≠ "" := by
  obtain ⟨x, hx, hname, l, path, hw⟩ := witnessed_run hg hrun hc
  have hl := (Graph.mem_loops.mp hw.isLoop).1
  exact ⟨hname ▸ hnames x hx, hw.loop ▸ hnames l hl⟩

/-- An element runs inside a loop exactly if its context tells that it is in one and this is the loop that
the context names, one that it was reached through, or one that owns the named loop in one step or more
through loops with names, whatever the owners are. And while contexts are worked out, a loop encloses
another exactly if one step or more from elements to the loops of their contexts lead there; none of these
has an empty name. -/
theorem nesting_follows_owners_to_the_end :
    (∀ (owners : Owners) (c : Context) (loop : String), nestedUnder c loop owners = true ↔
      c.isInLoop = true ∧ (loop = c.loop ∨ loop ∈ c.path ∨ TransGen (OwnerStep owners) c.loop loop)) ∧
    ∀ (md : Metadata) (opts : Options) (s : State), ReflTransGen (Moves (Graph.build md) opts) {} s →
      (∀ outer inner, s.encloses outer inner = true ↔ TransGen (LoopStep s) inner outer) ∧
      ∀ a b, LoopStep s a b → a ≠ "" ∧ b ≠ "" := by
  refine ⟨fun owners c loop ↦ ?_, fun md opts s hrun ↦ ⟨fun outer inner ↦ ?_, fun a b hstep ↦ ?_⟩⟩
  · have hsteps : Points owners.owner? = OwnerStep owners := by
      ext a b
      exact points_owner?_iff
    rw [nestedUnder_iff, hsteps, eq_comm (a := loop)]
  · have hsteps : Points s.owner? = LoopStep s := by
      ext a b
      exact points_state_owner?_iff
    rw [State.encloses_iff, hsteps]
  · obtain ⟨c, hc, rfl⟩ := hstep
    exact names_of_run (Graph.distinct_build md) (fun e ↦ Graph.name_ne_empty md) hrun hc

/-- Owners among which a circle does not come back to where it is entered, a loop owns itself, and an owner
is missing or has no name. -/
def tangledOwners : Owners :=
  [("Orders", "Lines"), ("Lines", "Items"), ("Items", "Lines"), ("Self", "Self"), ("Lost", "Gone"),
    ("Odd", "")]

theorem tangled_owners_followed :
    TransGen (OwnerStep tangledOwners) "Orders" "Items" ∧
      ¬TransGen (OwnerStep tangledOwners) "Lines" "Orders" ∧
      TransGen (LoopStep (propagate (Graph.build nestedFlow) {})) "Inner" "Outer" := by
  obtain ⟨hnested, hencloses⟩ := nesting_follows_owners_to_the_end
  let within (loop : String) : Context := ⟨true, loop, 1, ["Read"], [.recordLookup], .connector⟩
  refine ⟨?_, fun h ↦ ?_, ?_⟩
  · have hitems := (hnested tangledOwners (within "Orders") "Items").mp (by decide +kernel)
    simpa [within] using hitems.2
  · have horders := (hnested tangledOwners (within "Lines") "Orders").mpr ⟨rfl, .inr (.inr h)⟩
    exact absurd horders (by decide +kernel)
  · have hrun := propagate_run (Graph.build nestedFlow) {}
    exact ((hencloses nestedFlow {} _ hrun).1 "Outer" "Inner").mp (by decide +kernel)

end FlowAudit.Loops
