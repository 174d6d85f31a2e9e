import FlowAudit.Proofs.Loops.FirstClaim
import FlowAudit.Proofs.Loops.Membership

namespace FlowAudit.Loops

open Relation

variable {g : Graph} {opts : Options} {s s' : State} {x y : Element} {name : String} {c : Context}
  {a : Assignment}

/-- Contexts reach the element from one that mentions a loop's variable and that no loop reaches, or
it is that element. -/
def Drawn (g : Graph) (opts : Options) (x : Element) : Prop :=
  ∃ e, Eligible g e ∧ ¬Reached g opts e ∧ ReflTransGen (Follows g opts) e x

theorem Drawn.follows (h : Drawn g opts x) (hf : Follows g opts x y) : Drawn g opts y := by
  obtain ⟨e, he, hr, hrun⟩ := h
  exact ⟨e, he, hr, hrun.tail hf⟩

def State.ReferencesDrawn (g : Graph) (opts : Options) (s : State) : Prop :=
  ∀ a ∈ s.log, a.context.via = .reference → ∃ x ∈ g.elements, x.name = a.name ∧ Drawn g opts x

theorem State.ReferencesDrawn.assign (hs : s.ReferencesDrawn g opts)
    (hc : c.via = .reference → ∃ x ∈ g.elements, x.name = name ∧ Drawn g opts x) :
    (s.assign name c).ReferencesDrawn g opts := by
  intro a ha
  obtain rfl | ha := List.mem_cons.mp ha
  · exact hc
  · exact hs a ha

theorem Passes.referencesDrawn (hg : g.Distinct) (h : Passes g opts s s')
    (hs : s.ReferencesDrawn g opts) : s'.ReferencesDrawn g opts := by
  cases h with
  | round => exact hs
  | take he hc ht hcand _ =>
    obtain ⟨-, -, ⟨-, rfl⟩ | ⟨-, rfl⟩⟩ := candidate?_eq_some.mp hcand
    · exact hs.assign (fun hv ↦ by cases hv)
    · refine hs.assign (fun hv ↦ ?_)
      obtain ⟨y, hy, hn, hdrawn⟩ := hs _ (State.mem_log_of_context? hc) hv
      obtain rfl := hg.eq_of_name hy he hn
      obtain ⟨x, hx, rfl⟩ := mem_elements_of_mem_followed ht
      exact ⟨x, hx, rfl, hdrawn.follows ((mem_followed_iff hg he hx).mp ht)⟩

/-- An element is placed by reference only if it has no context, so that no loop reaches it once all
contexts along connectors are there. -/
theorem Places.referencesDrawn
    (hreached : ∀ x ∈ g.elements, x.kind ≠ .loop → Reached g opts x → s.HasContext x.name)
    (h : Places g s s') (hs : s.ReferencesDrawn g opts) : s'.ReferencesDrawn g opts := by
  obtain ⟨he, hk, hnone, href⟩ := h
  obtain ⟨l, hl, rfl, hm⟩ := mentions_of_referencedLoop? href
  refine hs.assign (fun _ ↦ ⟨_, he, rfl, _, ⟨he, hk, l, hl, hm⟩, fun hr ↦ ?_, .refl⟩)
  obtain ⟨c, hc⟩ := hreached _ he (takesValues_ne_loop hk) hr
  rw [hnone] at hc
  cases hc

theorem referencesDrawn_of_continues (hg : g.Distinct)
    (hrun : ReflTransGen (Continues g opts) (settle g opts (bound g) (seed g opts {})).1 s) :
    s.ReferencesDrawn g opts := by
  have hclosed := closed_settle_seed opts hg
  have hstart : (settle g opts (bound g) (seed g opts {})).1.ReferencesDrawn g opts := by
    intro a ha hv
    rw [byConnector_settle_seed (bound g) a ha] at hv
    cases hv
  have hinv := preserved_of_reflTransGen (P := fun s ↦
      (∀ x ∈ g.elements, x.kind ≠ .loop → Reached g opts x → s.HasContext x.name) ∧
        s.ReferencesDrawn g opts) (fun s s' hmove hs ↦ ⟨fun x hx hk hr ↦ ?_, ?_⟩) hrun
    ⟨fun x _ hk hr ↦ hclosed.hasContext_of_reached hg hr hk, hstart⟩
  · exact hinv.2
  · exact (hs.1 x hx hk hr).mono (Moves.log_subset (.inr hmove))
  · obtain h | h := hmove
    · exact h.referencesDrawn hg hs.2
    · exact h.referencesDrawn hs.1 hs.2

theorem mem_log_of_references (ha : a ∈ (references g s).1.log) (hv : a.context.via = .connector) :
    a ∈ s.log := by
  have hinv := preserved_of_reflTransGen
    (P := fun s' ↦ ∀ a ∈ s'.log, a.context.via = .connector → a ∈ s.log) ?_ (references_run g s)
    (fun a ha _ ↦ ha)
  · exact hinv a ha hv
  · rintro s₁ - ⟨-, -, -, -⟩ hs a ha hv
    obtain rfl | ha := List.mem_cons.mp ha
    · cases hv
    · exact hs a ha hv

theorem connector_of_not_alternate (ho : opts.alternate = false)
    (ha : a ∈ (propagate g opts).log) (hv : a.context.via = .connector)
    (hc : (propagate g opts).context? a.name = some c) : c.via = .connector := by
  have hl : g.loops ≠ [] := by
    intro hl
    rw [propagate_of_no_loops hl] at ha
    cases ha
  rw [propagate_of_not_alternate hl ho] at ha hc
  obtain hc | ⟨hnone, -⟩ := context?_cases_of_places (references_run g _) hc
  · exact connector_settle_seed _ hc
  · exact absurd rfl (State.context?_eq_none.mp hnone a (mem_log_of_references ha hv))

/-- With alternation, a context by reference is of the first level and was new to the element, which
no loop claims and which has been drawn in. -/
theorem drawn_of_reference (hg : g.Distinct) (ha : a ∈ (propagate g opts).log)
    (hv : a.context.via = .connector) (hc : (propagate g opts).context? a.name = some c)
    (href : c.via = .reference) :
    claimant? g opts a.name = none ∧ c.depth = 1 ∧
      (a.context.loop ≠ c.loop ∨ a.context.depth ≠ c.depth) ∧
      ∃ x ∈ g.elements, x.name = a.name ∧ Drawn g opts x := by
  have hl : g.loops ≠ [] := by
    intro hl
    rw [propagate_of_no_loops hl] at ha
    cases ha
  have hrun := propagate_run g opts
  have hmem := State.mem_log_of_context? hc
  have hdrawn := referencesDrawn_of_continues hg (propagate_continues_settle hl) _ hmem href
  refine ⟨?_, referencesFlat_run hrun _ hmem href, ?_, hdrawn⟩
  · -- A claim would have kept out contexts by reference.
    by_contra hclaim
    obtain ⟨loop, hloop⟩ := Option.ne_none_iff_exists'.mp hclaim
    obtain ⟨c', hc', -, hv'⟩ :=
      (stands_of_continues (propagate_continues g opts) hloop).context?
    rw [hc, Option.some.injEq] at hc'
    rw [← hc', href] at hv'
    cases hv'
  · -- No loop and depth is taken twice, so that both would be one assignment.
    by_contra hsame
    obtain ⟨hloop, hdepth⟩ := not_or.mp hsame
    have hkey : a.key = Assignment.key ⟨a.name, c⟩ := by
      simp only [Assignment.key, not_not.mp hloop, not_not.mp hdepth]
    rw [List.inj_on_of_nodup_map (keys_nodup hrun) ha hmem hkey, href] at hv
    cases hv

/-- An element that has once been found along connectors is so in the end, with one exception. If
passes and scans alternate, and the element is claimed by no loop, it can be left with a context of
the first level by reference: one that it had not held, and that comes from an element which mentions
a loop's variable and which no loop reaches. -/
theorem connector_kept_unless_drawn (md : Metadata) (opts : Options) {a : Assignment}
    (ha : a ∈ (propagate (Graph.build md) opts).log) (hv : a.context.via = .connector) :
    ∃ c, (propagate (Graph.build md) opts).context? a.name = some c ∧
      (c.via = .connector ∨ opts.alternate = true ∧
        claimant? (Graph.build md) opts a.name = none ∧ c.depth = 1 ∧
        (a.context.loop ≠ c.loop ∨ a.context.depth ≠ c.depth) ∧
        ∃ x ∈ (Graph.build md).elements, x.name = a.name ∧ Drawn (Graph.build md) opts x) := by
  obtain ⟨c, hc⟩ := State.exists_context?.mpr ⟨a, ha, rfl⟩
  refine ⟨c, hc, ?_⟩
  cases href : c.via with
  | connector => exact .inl rfl
  | reference =>
    have hdrawn := drawn_of_reference (Graph.distinct_build md) ha hv hc href
    cases ho : opts.alternate with
    | true => exact .inr ⟨rfl, hdrawn⟩
    | false => exact .inl (href.symm.trans (connector_of_not_alternate ho ha hv hc))

/-- Orders are read and saved one after the other. A note, which nothing leads to, mentions the
variable of another loop and leads to the saving as well. -/
def annotatedFlow : Metadata where
  name := "Annotated"
  steps
    | .loop => [{ name := "Orders", nextValueConnector := some "Read" }, { name := "Items" }]
    | .recordLookup => [{ name := "Read", connector := some "Save" }]
    | .recordUpdate => [{ name := "Save" }]
    | .assignment => [{ name := "Note", connector := some "Save"
                        assignmentItems := [{ value := { elementReference := "Items.Name" } }] }]
    | _ => []

/-- The saving is found to be in the loop of orders along connectors, and is then placed by reference
in the loop of the note. -/
theorem connector_lost_to_reference :
    ⟨"Save", ⟨true, "Orders", 1, ["Read", "Save"], [.recordLookup, .recordUpdate], .connector⟩⟩ ∈
      (propagate (Graph.build annotatedFlow) { alternate := true }).log ∧
    (propagate (Graph.build annotatedFlow) { alternate := true }).context? "Save" =
      some ⟨true, "Items", 1, ["Note", "Save"], [.assignment, .recordUpdate], .reference⟩ ∧
    ∃ x ∈ (Graph.build annotatedFlow).elements, x.name = "Save" ∧
      Drawn (Graph.build annotatedFlow) { alternate := true } x := by
  have ha : ⟨"Save", ⟨true, "Orders", 1, ["Read", "Save"], [.recordLookup, .recordUpdate],
      .connector⟩⟩ ∈ (propagate (Graph.build annotatedFlow) { alternate := true }).log := by
    decide
  have hfinal : (propagate (Graph.build annotatedFlow) { alternate := true }).context? "Save" =
      some ⟨true, "Items", 1, ["Note", "Save"], [.assignment, .recordUpdate], .reference⟩ := by
    decide
  refine ⟨ha, hfinal, ?_⟩
  obtain ⟨c, hc, hvia⟩ := connector_kept_unless_drawn annotatedFlow { alternate := true } ha rfl
  rw [hfinal, Option.some.injEq] at hc
  obtain hvia | ⟨-, -, -, -, hdrawn⟩ := hvia
  · rw [← hc] at hvia
    cases hvia
  · exact hdrawn

end FlowAudit.Loops
