import FlowAudit.Graph.Build
import FlowAudit.Proofs.Runs
import Mathlib.Data.List.Nodup

namespace FlowAudit

namespace Element

@[simp] theorem mem_edgeTargets {e : Element} {t : String} :
    t ∈ e.edgeTargets ↔ ∃ d ∈ e.edges, d.target = t := by
  rw [edgeTargets, mem_foldl_distinct]
  simp

end Element

namespace Graph

variable {g : Graph} {e : Element} {name : String}

def Distinct (g : Graph) : Prop := (g.elements.map (·.name)).Nodup

@[simp] theorem has_iff : g.has name = true ↔ ∃ e ∈ g.elements, e.name = name := by
  simp [has]

theorem mem_targetsOf : name ∈ g.targetsOf e ↔
    (∃ d ∈ e.edges, d.target = name) ∧ ∃ t ∈ g.elements, t.name = name := by
  simp [targetsOf]

theorem mem_loops : e ∈ g.loops ↔ e ∈ g.elements ∧ e.kind = .loop := by
  simp [loops, ofKind]

theorem mem_of_find? (h : g.find? name = some e) : e ∈ g.elements ∧ e.name = name := by
  refine ⟨List.mem_of_find?_eq_some h, ?_⟩
  simpa using List.find?_some h

theorem Distinct.eq_of_name (hg : g.Distinct) {a b : Element} (ha : a ∈ g.elements)
    (hb : b ∈ g.elements) (h : a.name = b.name) : a = b :=
  List.inj_on_of_nodup_map hg ha hb h

theorem Distinct.find?_eq (hg : g.Distinct) (he : e ∈ g.elements) : g.find? e.name = some e := by
  have hs : (g.find? e.name).isSome := by
    rw [find?, List.find?_isSome]
    exact ⟨e, he, by simp⟩
  obtain ⟨a, ha⟩ := Option.isSome_iff_exists.mp hs
  obtain ⟨hm, hn⟩ := mem_of_find? ha
  rw [ha, hg.eq_of_name hm he hn]

theorem Distinct.kind?_eq (hg : g.Distinct) (he : e ∈ g.elements) :
    g.kind? e.name = some e.kind := by
  rw [kind?, hg.find?_eq he, Option.map_some]

theorem Distinct.isLoop_iff (hg : g.Distinct) (he : e ∈ g.elements) :
    g.isLoop e.name = true ↔ e.kind = .loop := by
  simp [isLoop, hg.kind?_eq he]

theorem Progress.distinct_add (en : Entry) {p : Progress} (hp : p.graph.Distinct) :
    (p.add name en).graph.Distinct := by
  unfold Progress.add
  split
  · exact hp
  · next h =>
    have hn : ∀ a ∈ p.graph.elements, a.name ≠ name := by
      intro a ha hn
      exact h (has_iff.mpr ⟨a, ha, hn⟩)
    simpa [Distinct, List.map_append, List.nodup_append] using
      And.intro hp hn

theorem Progress.distinct_register (taken : List String) (en : Entry) {p : Progress}
    (hp : p.graph.Distinct) : (p.register taken en).graph.Distinct := by
  unfold Progress.register
  split
  · exact Progress.distinct_add en hp
  · exact Progress.distinct_add en hp

theorem Progress.distinct_foldl (taken : List String) (ens : List Entry) {p : Progress}
    (hp : p.graph.Distinct) : (ens.foldl (Progress.register taken) p).graph.Distinct := by
  induction ens generalizing p with
  | nil => exact hp
  | cons en ens ih => exact ih (Progress.distinct_register taken en hp)

theorem distinct_build (md : Metadata) : (build md).Distinct :=
  Progress.distinct_foldl (declared md) (entries md) (p := {}) List.nodup_nil

end Graph

end FlowAudit
