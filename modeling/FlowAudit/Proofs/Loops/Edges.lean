import FlowAudit.Loops.Propagation
import FlowAudit.Proofs.Graph.Names
import Mathlib.Logic.Relation

namespace FlowAudit.Loops

variable {g : Graph} {opts : Options} {e t l : Element}

def Leads (g : Graph) (e t : Element) : Prop :=
  e ∈ g.elements ∧ t ∈ g.elements ∧ ∃ d ∈ e.edges, d.target = t.name

/-- Contexts pass from the element to the other one: an edge leads there, and if it is the way out
of a loop, then ways out are not excluded and no loop lies behind this one. -/
def Follows (g : Graph) (opts : Options) (e t : Element) : Prop :=
  e ∈ g.elements ∧ t ∈ g.elements ∧ ∃ d ∈ e.edges, d.target = t.name ∧
    (e.kind ≠ .loop ∨ d.kind ≠ .noMoreValues ∨ opts.excludeExitEdges = false ∧ t.kind ≠ .loop)

theorem Follows.leads (h : Follows g opts e t) : Leads g e t := by
  obtain ⟨he, ht, d, hd, hn, -⟩ := h
  exact ⟨he, ht, d, hd, hn⟩

theorem Leads.follows (h : Leads g e t) (hk : e.kind ≠ .loop) : Follows g opts e t := by
  obtain ⟨he, ht, d, hd, hn⟩ := h
  exact ⟨he, ht, d, hd, hn, .inl hk⟩

theorem mem_elements_of_mem_followed {name : String} (h : name ∈ followed g opts e) :
    ∃ t ∈ g.elements, t.name = name := by
  unfold followed at h
  split at h
  · exact (Graph.mem_targetsOf.mp (List.mem_filter.mp h).1).2
  · exact (Graph.mem_targetsOf.mp h).2

theorem mem_followed_iff (hg : g.Distinct) (he : e ∈ g.elements) (ht : t ∈ g.elements) :
    t.name ∈ followed g opts e ↔ Follows g opts e t := by
  have htarget : t.name ∈ g.targetsOf e ↔ ∃ d ∈ e.edges, d.target = t.name := by
    rw [Graph.mem_targetsOf]
    exact and_iff_left ⟨t, ht, rfl⟩
  by_cases hk : e.kind = .loop
  · simp only [followed, hk, if_true, List.mem_filter, htarget, Bool.or_eq_true,
      Bool.and_eq_true, Bool.not_eq_true', List.contains_eq_mem, decide_eq_true_eq, List.mem_map,
      ← Bool.not_eq_true, hg.isLoop_iff ht]
    constructor
    · rintro ⟨⟨d, hd, hn⟩, ⟨d', ⟨hd', hk'⟩, hn'⟩ | hout⟩
      · exact ⟨he, ht, d', hd', hn', .inr (.inl hk')⟩
      · exact ⟨he, ht, d, hd, hn, .inr (.inr (by simpa using hout))⟩
    · rintro ⟨-, -, d, hd, hn, hk' | hk' | hout⟩
      · exact absurd hk hk'
      · exact ⟨⟨d, hd, hn⟩, .inl ⟨d, ⟨hd, hk'⟩, hn⟩⟩
      · exact ⟨⟨d, hd, hn⟩, .inr (by simpa using hout)⟩
  · simp only [followed, hk, if_false, htarget]
    constructor
    · rintro ⟨d, hd, hn⟩
      exact ⟨he, ht, d, hd, hn, .inl hk⟩
    · rintro ⟨-, -, d, hd, hn, -⟩
      exact ⟨d, hd, hn⟩

/-- One of the element's values is the variable of the loop, or a member of it. -/
def Mentions (e l : Element) : Prop :=
  ∃ expr ∈ e.valueExpressions, referencesLoop (stripMergeField expr) l.name = true

def Eligible (g : Graph) (e : Element) : Prop :=
  e ∈ g.elements ∧ takesValues e.kind = true ∧ ∃ l ∈ g.loops, Mentions e l

theorem takesValues_ne_loop {k : StepKind} (h : takesValues k = true) : k ≠ .loop := by
  rintro rfl
  exact absurd h (by decide)

theorem mentions_of_referencedLoop? {name : String} (h : referencedLoop? g e = some name) :
    ∃ l ∈ g.loops, l.name = name ∧ Mentions e l := by
  obtain ⟨expr, hexpr, hl⟩ := List.exists_of_findSome?_eq_some h
  obtain ⟨l, hf, rfl⟩ := Option.map_eq_some_iff.mp hl
  have hm := List.find?_some hf
  exact ⟨l, List.mem_of_find?_eq_some hf, rfl, expr, hexpr, hm⟩

theorem exists_referencedLoop?_iff :
    (∃ name, referencedLoop? g e = some name) ↔ ∃ l ∈ g.loops, Mentions e l := by
  constructor
  · rintro ⟨name, h⟩
    obtain ⟨l, hl, -, hm⟩ := mentions_of_referencedLoop? h
    exact ⟨l, hl, hm⟩
  · rintro ⟨l, hl, expr, hexpr, hm⟩
    apply Option.isSome_iff_exists.mp
    rw [referencedLoop?, List.findSome?_isSome_iff]
    refine ⟨expr, hexpr, ?_⟩
    rw [Option.isSome_map, List.find?_isSome]
    exact ⟨l, hl, hm⟩

end FlowAudit.Loops
