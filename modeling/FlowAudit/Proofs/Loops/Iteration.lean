import FlowAudit.Proofs.Loops.Membership

namespace FlowAudit.Loops

open Relation

variable {g : Graph} {opts : Options} {x y r : Element}

/-- The loop `r` repeats the element: it lies on a walk that leaves `r` for its next value and does
not come back to `r`. The walk may take edges of any kind. -/
inductive Repeated (g : Graph) (r : Element) : Element → Prop
  | next {x : Element} {d : Edge} (hr : r ∈ g.elements) (hx : x ∈ g.elements) (hd : d ∈ r.edges)
      (hk : d.kind = .nextValue) (ht : d.target = x.name) (hne : x ≠ r) : Repeated g r x
  | step {x y : Element} (hx : Repeated g r x) (hy : Leads g x y) (hne : y ≠ r) : Repeated g r y

/-- The element is in the body of some loop: a walk leads to it that begins with any edge of the
loop but the way out, and that passes no other loop. -/
inductive InBody (g : Graph) : Element → Prop
  | enter {l x : Element} {d : Edge} (hl : l ∈ g.loops) (hx : x ∈ g.elements) (hd : d ∈ l.edges)
      (hk : d.kind ≠ .noMoreValues) (ht : d.target = x.name) : InBody g x
  | step {x y : Element} (hx : InBody g x) (hk : x.kind ≠ .loop) (hy : Leads g x y) : InBody g y

theorem InBody.reached (h : InBody g x) : Reached g opts x := by
  induction h with
  | @enter l x d hl hx hd hk ht =>
    exact ⟨l, hl, .single ⟨(Graph.mem_loops.mp hl).1, hx, d, hd, ht, .inr (.inl hk)⟩⟩
  | step _ hk hy ih =>
    obtain ⟨l, hl, hrun⟩ := ih
    exact ⟨l, hl, hrun.tail (hy.follows hk)⟩

/-- An edge that is followed although ways out are excluded leads into a body or goes on in one. -/
theorem InBody.of_follows (ho : opts.excludeExitEdges = true) (hf : Follows g opts y x)
    (hy : y.kind ≠ .loop → InBody g y) : InBody g x := by
  by_cases hk : y.kind = .loop
  · obtain ⟨hye, hxe, d, hd, ht, hk' | hk' | ⟨ho', -⟩⟩ := hf
    · exact absurd hk hk'
    · exact .enter (Graph.mem_loops.mpr ⟨hye, hk⟩) hxe hd hk' ht
    · rw [ho] at ho'
      cases ho'
  · exact .step (hy hk) hk hf.leads

theorem reached_iff_inBody (ho : opts.excludeExitEdges = true) :
    Reached g opts x ↔ InBody g x := by
  refine ⟨?_, InBody.reached⟩
  rintro ⟨l, hl, hrun⟩
  induction hrun with
  | single hf => exact .of_follows ho hf fun hk ↦ absurd (Graph.mem_loops.mp hl).2 hk
  | tail _ hf ih => exact .of_follows ho hf fun _ ↦ ih

/-- While ways out are followed, contexts reach everything that a loop repeats. -/
theorem Repeated.reached (ho : opts.excludeExitEdges = false) (hr : r ∈ g.loops)
    (h : Repeated g r x) (hk : x.kind ≠ .loop) : Reached g opts x := by
  induction h with
  | @next x d hre hx hd hdk ht _ =>
    exact ⟨r, hr, .single ⟨hre, hx, d, hd, ht, .inr (.inl (by simp [hdk]))⟩⟩
  | @step y x _ hy _ ih =>
    by_cases hyk : y.kind = .loop
    · -- The last loop on the walk reaches the element, by its way out if need be.
      obtain ⟨hye, hxe, d, hd, ht⟩ := hy
      exact ⟨y, Graph.mem_loops.mpr ⟨hye, hyk⟩,
        .single ⟨hye, hxe, d, hd, ht, .inr (.inr ⟨ho, hk⟩)⟩⟩
    · obtain ⟨l, hl, hrun⟩ := ih hyk
      exact ⟨l, hl, hrun.tail (hy.follows hyk)⟩

theorem Repeated.mem (h : Repeated g r x) : x ∈ g.elements := by
  cases h with
  | next _ hx => exact hx
  | step _ hy => exact hy.2.1

theorem isInLoop_iff_hasContext (hg : g.Distinct) (name : String) :
    ((propagate g opts).context? name).any (·.isInLoop) = true ↔
      (propagate g opts).HasContext name := by
  cases hc : (propagate g opts).context? name with
  | none => simp [State.HasContext, hc]
  | some c =>
    obtain ⟨_, -, -, l, path, hw⟩ := witnessed_run hg (propagate_run g opts) hc
    simpa [State.HasContext, hc] using hw.isInLoop

/-- A step that a loop repeats is found to be in a loop exactly if ways out are followed, or it is
in the body of some loop, or it is found by reference. So it is missed only behind the way out of an
inner loop, when ways out are excluded. -/
theorem repeated_isInLoop_iff (md : Metadata) (opts : Options) {r x : Element}
    (hr : r ∈ (Graph.build md).loops) (h : Repeated (Graph.build md) r x) (hk : x.kind ≠ .loop) :
    ((propagate (Graph.build md) opts).context? x.name).any (·.isInLoop) = true ↔
      opts.excludeExitEdges = false ∨ InBody (Graph.build md) x ∨
        opts.alternate = false ∧ Eligible (Graph.build md) x ∨
        opts.alternate = true ∧ Downstream (Graph.build md) opts x := by
  have hg := Graph.distinct_build md
  have hreached : Reached (Graph.build md) opts x ↔
      opts.excludeExitEdges = false ∨ InBody (Graph.build md) x := by
    cases ho : opts.excludeExitEdges with
    | false => simpa using h.reached ho hr hk
    | true => simpa using reached_iff_inBody ho
  rw [isInLoop_iff_hasContext hg]
  cases ha : opts.alternate with
  | false => simp [hasContext_of_not_alternate hg ha h.mem hk, hreached, or_assoc]
  | true => simp [hasContext_of_alternate hg ha h.mem hk, hreached, or_assoc]

def outerLoop : Element :=
  ⟨"Outer", .loop, .loop "" "", [{ target := "Inner", kind := .nextValue }]⟩

def innerLoop : Element :=
  ⟨"Inner", .loop, .loop "" "",
    [{ target := "Create", kind := .nextValue }, { target := "Call", kind := .noMoreValues }]⟩

def callStep : Element :=
  ⟨"Call", .subflow, .subflow "Child" [], [{ target := "Outer", kind := .connector }]⟩

theorem repeated_callStep : Repeated (Graph.build nestedFlow) outerLoop callStep := by
  have hinner : Repeated (Graph.build nestedFlow) outerLoop innerLoop :=
    .next (d := { target := "Inner", kind := .nextValue }) (by decide) (by decide)
      (by decide) rfl rfl (by decide)
  refine .step hinner ⟨by decide, by decide, ?_⟩ (by decide)
  exact ⟨{ target := "Call", kind := .noMoreValues }, by decide, rfl⟩

/-- The outer loop makes the call for each of its values, but the call is missed when ways out are
excluded. -/
theorem call_missed_without_exits :
    outerLoop ∈ (Graph.build nestedFlow).loops ∧
    Repeated (Graph.build nestedFlow) outerLoop callStep ∧ callStep.kind ≠ .loop ∧
    ((propagate (Graph.build nestedFlow) {}).context? "Call").any (·.isInLoop) = true ∧
    ¬((propagate (Graph.build nestedFlow) { excludeExitEdges := true }).context? "Call").any
      (·.isInLoop) = true ∧ ¬InBody (Graph.build nestedFlow) callStep := by
  have hr : outerLoop ∈ (Graph.build nestedFlow).loops := by decide
  have hk : callStep.kind ≠ .loop := by decide
  have hmissed : ¬((propagate (Graph.build nestedFlow) { excludeExitEdges := true }).context?
      "Call").any (·.isInLoop) = true := by decide
  refine ⟨hr, repeated_callStep, hk, ?_, hmissed, fun hbody ↦ ?_⟩
  · exact (repeated_isInLoop_iff nestedFlow {} hr repeated_callStep hk).mpr (.inl rfl)
  · exact hmissed ((repeated_isInLoop_iff nestedFlow { excludeExitEdges := true } hr
      repeated_callStep hk).mpr (.inr (.inl hbody)))

end FlowAudit.Loops
