import FlowAudit.Proofs.Loops.Settling

namespace FlowAudit.Loops

open Relation

variable {g : Graph} {opts : Options} {s s' : State} {x y l : Element} {c : Context}
  {path : List Element} {name : String}

def Reached (g : Graph) (opts : Options) (x : Element) : Prop :=
  ∃ l ∈ g.loops, TransGen (Follows g opts) l x

/-- Contexts reach the element from one that mentions a loop's variable, or it is that element. -/
def Downstream (g : Graph) (opts : Options) (x : Element) : Prop :=
  ∃ e, Eligible g e ∧ ReflTransGen (Follows g opts) e x

theorem Witness.exists_start (h : Witness g opts x c l path) :
    ∃ a ∈ g.elements, Starts g opts l a c.via ∧ ReflTransGen (Follows g opts) a x := by
  cases path with
  | nil => exact absurd h.last (by simp)
  | cons a path =>
    refine ⟨a, h.mem a List.mem_cons_self, h.starts a rfl, ?_⟩
    apply List.relationReflTransGen_of_exists_isChain_cons path h.chain
    have hlast := h.last
    rwa [List.getLast?_eq_some_getLast (List.cons_ne_nil a path), Option.some.injEq] at hlast

theorem Witness.reached (h : Witness g opts x c l path) (hv : c.via = .connector) :
    Reached g opts x := by
  obtain ⟨a, -, hstart, hrun⟩ := h.exists_start
  rw [hv] at hstart
  exact ⟨l, h.isLoop, .head' hstart hrun⟩

theorem Witness.downstream (h : Witness g opts x c l path) (hv : c.via = .reference) :
    Downstream g opts x := by
  obtain ⟨a, ha, hstart, hrun⟩ := h.exists_start
  rw [hv] at hstart
  exact ⟨a, ⟨ha, hstart.1, l, h.isLoop, hstart.2⟩, hrun⟩

def State.HasContext (s : State) (name : String) : Prop := ∃ c, s.context? name = some c

theorem State.HasContext.mono (h : s.HasContext name) (hlog : s.log ⊆ s'.log) :
    s'.HasContext name := by
  obtain ⟨a, ha, hn⟩ := State.exists_context?.mp h
  exact State.exists_context?.mpr ⟨a, hlog ha, hn⟩

theorem Moves.log_subset (h : Moves g opts s s') : s.log ⊆ s'.log := by
  obtain h | ⟨a, h, -⟩ := h.log_cases
  · rw [h]
    exact List.Subset.refl _
  · rw [h]
    exact List.subset_cons_self _ _

theorem hasContext_run (h : ReflTransGen (Moves g opts) s s') (hn : s.HasContext name) :
    s'.HasContext name :=
  preserved_of_reflTransGen (P := (State.HasContext · name)) (fun _ _ hm hs ↦ hs.mono hm.log_subset)
    h hn

theorem hasContext_claims (h : ReflTransGen (Claims g opts) s s') (hn : s.HasContext name) :
    s'.HasContext name :=
  hasContext_run (moves_of_claims h) hn

theorem hasContext_claim {loop : String} (hne : name ≠ loop) (s : State) :
    (claim g loop s name).HasContext name := by
  unfold claim
  split
  · next h => simpa [State.HasContext, hne, Option.isSome_iff_exists] using h
  · exact ⟨_, State.context?_assign_self s⟩

/-- Wherever a loop leads, there is a context after the claims, if only that of another loop. -/
theorem hasContext_seed (hl : l ∈ g.loops) (hn : name ∈ followed g opts l) (hne : name ≠ l.name)
    (s : State) : (seed g opts s).HasContext name := by
  have hown : ∀ s, ((followed g opts l).foldl (claim g l.name) s).HasContext name :=
    foldl_establishes (P := (State.HasContext · name)) hn
      (fun t ht s hs ↦ hasContext_claims (claim_run hl ht s) hs) (hasContext_claim hne)
  refine foldl_establishes (P := (State.HasContext · name)) hl (fun l' hl' s hs ↦ ?_) hown s
  exact hasContext_claims (reflTransGen_foldl id (fun s _ ht ↦ claim_run hl' ht s) s) hs

/-- Contexts are where they have to be at least: behind every loop, and nothing can be passed on. -/
structure Closed (g : Graph) (opts : Options) (s : State) : Prop where
  run : ReflTransGen (Moves g opts) {} s
  claimed : ∀ l ∈ g.loops, ∀ x, Follows g opts l x → x.name ≠ l.name → s.HasContext x.name
  settled : Settled g opts s

theorem Closed.hasContext_of_element (hg : g.Distinct) (h : Closed g opts s)
    (hy : s.HasContext y.name) (hk : y.kind ≠ .loop) (hf : Follows g opts y x)
    (hx : x.kind ≠ .loop) : s.HasContext x.name := by
  obtain ⟨c, hc⟩ := hy
  obtain ⟨hye, hxe, -⟩ := hf.leads
  by_contra hnone
  have hnone : s.context? x.name = none := by
    simpa [State.HasContext, Option.eq_none_iff_forall_ne_some] using hnone
  obtain ⟨_, -, -, l, path, hw⟩ := witnessed_run hg h.run hc
  have hloop : x.name ≠ c.loop := by
    intro hn
    obtain ⟨hle, hlk⟩ := Graph.mem_loops.mp hw.isLoop
    exact hx (hg.eq_of_name hxe hle (hn.trans hw.loop) ▸ hlk)
  have hself : x.name ≠ y.name := by
    intro hn
    rw [hn, hc] at hnone
    cases hnone
  exact h.settled y hye c hc x.name ((mem_followed_iff hg hye hxe).mpr hf) _
    (candidate?_eq_some.mpr ⟨hloop, hself, .inr ⟨hk, rfl⟩⟩)
    (accepts_of_none hnone (fun hl ↦ hx ((hg.isLoop_iff hxe).mp hl)) hw.depth_le)

/-- Whatever lies behind a loop, or behind an element with a context, has a context or is a loop
itself. -/
theorem Closed.step (hg : g.Distinct) (h : Closed g opts s)
    (hy : y.kind = .loop ∨ s.HasContext y.name) (hf : Follows g opts y x) :
    x.kind = .loop ∨ s.HasContext x.name := by
  by_cases hx : x.kind = .loop
  · exact .inl hx
  · refine .inr ?_
    by_cases hk : y.kind = .loop
    · have hne : x.name ≠ y.name := by
        intro hn
        exact hx (hg.eq_of_name hf.leads.2.1 hf.leads.1 hn ▸ hk)
      exact h.claimed y (Graph.mem_loops.mpr ⟨hf.leads.1, hk⟩) x hf hne
    · exact h.hasContext_of_element hg (hy.resolve_left hk) hk hf hx

theorem Closed.hasContext_of_run (hg : g.Distinct) (h : Closed g opts s)
    (hy : y.kind = .loop ∨ s.HasContext y.name) (hf : ReflTransGen (Follows g opts) y x)
    (hx : x.kind ≠ .loop) : s.HasContext x.name := by
  have hp := preserved_of_reflTransGen (P := fun x ↦ x.kind = .loop ∨ s.HasContext x.name)
    (fun _ _ hf hy ↦ h.step hg hy hf) hf hy
  exact hp.resolve_left hx

theorem Closed.hasContext_of_reached (hg : g.Distinct) (h : Closed g opts s)
    (hr : Reached g opts x) (hx : x.kind ≠ .loop) : s.HasContext x.name := by
  obtain ⟨l, hl, hf⟩ := hr
  exact h.hasContext_of_run hg (.inl (Graph.mem_loops.mp hl).2) hf.to_reflTransGen hx

theorem closed_settle_seed (opts : Options) (hg : g.Distinct) :
    Closed g opts (settle g opts (bound g) (seed g opts {})).1 := by
  have hseed := moves_of_claims (seed_run g opts {})
  have hsettle := moves_of_continues (settle_continues g opts (bound g) (seed g opts {}))
  refine ⟨hseed.trans hsettle, fun l hl x hf hne ↦ ?_, settled_settle hg hseed (by omega)⟩
  have hn := (mem_followed_iff hg hf.leads.1 hf.leads.2.1).mpr hf
  exact hasContext_run hsettle (hasContext_seed hl hn hne {})

theorem Closed.settle_references (hg : g.Distinct) (h : Closed g opts s) :
    Closed g opts (settle g opts (bound g) (references g s).1).1 := by
  have hrefs := moves_of_continues (references_continues g opts s)
  have hsettle := moves_of_continues (settle_continues g opts (bound g) (references g s).1)
  refine ⟨(h.run.trans hrefs).trans hsettle, fun l hl x hf hne ↦ ?_,
    settled_settle hg (h.run.trans hrefs) (by omega)⟩
  exact hasContext_run (hrefs.trans hsettle) (h.claimed l hl x hf hne)

theorem hasContext_placeByReference (he : Eligible g x) (p : State × Bool) :
    (placeByReference g p x).1.HasContext x.name := by
  obtain ⟨-, hk, hl⟩ := he
  obtain ⟨loop, hloop⟩ := exists_referencedLoop?_iff.mpr hl
  unfold placeByReference
  split
  · next h => simpa [State.HasContext, hk, Option.isSome_iff_exists] using h
  · simp only [hloop]
    exact ⟨_, State.context?_assign_self p.1⟩

/-- After a reference pass, every element that mentions a loop's variable has a context. -/
theorem hasContext_references (he : Eligible g x) (s : State) :
    (references g s).1.HasContext x.name := by
  refine foldl_establishes (P := fun p : State × Bool ↦ p.1.HasContext x.name) he.1 ?_
    (hasContext_placeByReference he) (s, false)
  intro e _ p hp
  obtain h | ⟨loop, -, -, -, h⟩ := placeByReference_cases g p e
  · rwa [h]
  · rw [h]
    exact hp.mono (List.subset_cons_self _ _)

/-- When passes and scans have taken turns, nothing can be passed on or placed any more. -/
theorem closed_alternate (hg : g.Distinct) (fuel : Nat) (h : Closed g opts s) :
    Closed g opts (alternate g opts fuel s) ∧
      ∀ e, Eligible g e → (alternate g opts fuel s).HasContext e.name := by
  induction fuel using Nat.strongRecOn generalizing s with
  | ind fuel ih =>
    obtain ⟨hc, heq⟩ | ⟨-, heq | ⟨n, hn, heq⟩⟩ := alternate_cases g opts fuel s
    · -- The pass has placed nothing, so that it was not needed.
      have hsame := (Grows.foldl grows_placeByReference g.elements (s, false)).eq_of_not_changed hc
      have hs : (references g s).1 = s := congrArg Prod.fst hsame
      refine ⟨by rwa [heq, hs], fun e he ↦ ?_⟩
      rw [heq]
      exact hasContext_references he s
    · refine ⟨heq ▸ h.settle_references hg, fun e he ↦ ?_⟩
      rw [heq]
      exact hasContext_run (moves_of_continues (settle_continues g opts _ _))
        (hasContext_references he s)
    · rw [heq]
      exact ih n (by omega) (h.settle_references hg)

theorem Places.keeps (h : Places g s s') (hc : s.context? name = some c) :
    s'.context? name = some c := by
  cases h with
  | @place e _ _ _ hs _ =>
    have hne : name ≠ e.name := by
      rintro rfl
      rw [hs] at hc
      cases hc
    exact (State.context?_assign_of_ne _ hne).trans hc

theorem references_keeps (hc : s.context? name = some c) :
    (references g s).1.context? name = some c :=
  preserved_of_reflTransGen (P := fun s ↦ s.context? name = some c) (fun _ _ h hc ↦ h.keeps hc)
    (references_run g s) hc

theorem Places.context?_cases (h : Places g s s') (hc : s'.context? name = some c) :
    s.context? name = some c ∨ s.context? name = none ∧
      ∃ e, Eligible g e ∧ e.name = name ∧ c.via = .reference := by
  cases h with
  | @place e _ he hk hs href =>
    obtain ⟨l, hl, rfl, hm⟩ := mentions_of_referencedLoop? href
    by_cases hn : name = e.name
    · subst hn
      have hself : some (mentioning e l.name) = some c :=
        (State.context?_assign_self s).symm.trans hc
      exact .inr ⟨hs, e, ⟨he, hk, l, hl, hm⟩, rfl, Option.some.inj hself ▸ rfl⟩
    · exact .inl ((State.context?_assign_of_ne s hn).symm.trans hc)

/-- A reference pass places only elements that mention a loop's variable and have no context yet. -/
theorem context?_cases_of_places (h : ReflTransGen (Places g) s s')
    (hc : s'.context? name = some c) : s.context? name = some c ∨ s.context? name = none ∧
      ∃ e, Eligible g e ∧ e.name = name ∧ c.via = .reference := by
  induction h using ReflTransGen.head_induction_on with
  | refl => exact .inl hc
  | @head s m hplace _ ih =>
    obtain hm | ⟨hnone, hplaced⟩ := ih
    · exact hplace.context?_cases hm
    · refine .inr ⟨?_, hplaced⟩
      cases hs : s.context? name with
      | none => rfl
      | some c' =>
        rw [hplace.keeps hs] at hnone
        cases hnone

def State.ByConnector (s : State) : Prop := ∀ a ∈ s.log, a.context.via = .connector

theorem State.ByConnector.assign (hs : s.ByConnector) (hc : c.via = .connector) :
    (s.assign name c).ByConnector := by
  intro a ha
  obtain rfl | ha := List.mem_cons.mp ha
  · exact hc
  · exact hs a ha

theorem Claims.byConnector (h : Claims g opts s s') (hs : s.ByConnector) : s'.ByConnector := by
  obtain ⟨-, -, -, -⟩ := h
  exact hs.assign rfl

theorem Passes.byConnector (h : Passes g opts s s') (hs : s.ByConnector) : s'.ByConnector := by
  cases h with
  | round => exact hs
  | take _ hc _ hcand _ =>
    obtain ⟨-, -, ⟨-, rfl⟩ | ⟨-, rfl⟩⟩ := candidate?_eq_some.mp hcand
    · exact hs.assign rfl
    · exact hs.assign (hs _ (State.mem_log_of_context? hc))

/-- Before the first reference pass all contexts have come along connectors. -/
theorem byConnector_settle_seed (fuel : Nat) :
    (settle g opts fuel (seed g opts {})).1.ByConnector := by
  have hnone : State.ByConnector {} := by simp [State.ByConnector]
  have hseed := preserved_of_reflTransGen (P := State.ByConnector) (fun _ _ ↦ Claims.byConnector)
    (seed_run g opts {}) hnone
  exact preserved_of_reflTransGen (P := State.ByConnector) (fun _ _ ↦ Passes.byConnector)
    (settle_run g opts fuel _) hseed

theorem connector_settle_seed (fuel : Nat)
    (hc : (settle g opts fuel (seed g opts {})).1.context? name = some c) : c.via = .connector :=
  byConnector_settle_seed fuel _ (State.mem_log_of_context? hc)

theorem Closed.witness (hg : g.Distinct) (h : Closed g opts s) (hx : x ∈ g.elements)
    (hc : s.context? x.name = some c) : ∃ l path, Witness g opts x c l path := by
  obtain ⟨y, hy, hn, hw⟩ := witnessed_run hg h.run hc
  exact hg.eq_of_name hy hx hn ▸ hw

theorem hasContext_settle_seed_iff (opts : Options) (hg : g.Distinct) (hx : x ∈ g.elements)
    (hk : x.kind ≠ .loop) :
    (settle g opts (bound g) (seed g opts {})).1.HasContext x.name ↔ Reached g opts x := by
  have hclosed := closed_settle_seed opts hg
  constructor
  · rintro ⟨c, hc⟩
    obtain ⟨l, path, hw⟩ := hclosed.witness hg hx hc
    exact hw.reached (connector_settle_seed _ hc)
  · exact fun hr ↦ hclosed.hasContext_of_reached hg hr hk

theorem not_reached_of_no_loops (h : g.loops = []) : ¬Reached g opts x := by
  rintro ⟨l, hl, -⟩
  simp [h] at hl

theorem not_eligible_of_no_loops (h : g.loops = []) : ¬Eligible g x := by
  rintro ⟨-, -, l, hl, -⟩
  simp [h] at hl

theorem not_hasContext_of_no_loops (h : g.loops = []) : ¬(propagate g opts).HasContext name := by
  rw [propagate_of_no_loops h]
  rintro ⟨c, hc⟩
  cases hc

theorem hasContext_of_not_alternate (hg : g.Distinct) (ho : opts.alternate = false)
    (hx : x ∈ g.elements) (hk : x.kind ≠ .loop) :
    (propagate g opts).HasContext x.name ↔ Reached g opts x ∨ Eligible g x := by
  by_cases hl : g.loops = []
  · exact iff_of_false (not_hasContext_of_no_loops hl)
      (not_or.mpr ⟨not_reached_of_no_loops hl, not_eligible_of_no_loops hl⟩)
  have hsettle := hasContext_settle_seed_iff opts hg hx hk
  rw [propagate_of_not_alternate hl ho]
  constructor
  · rintro ⟨c, hc⟩
    obtain hc | ⟨-, e, he, hn, -⟩ := context?_cases_of_places (references_run g _) hc
    · exact .inl (hsettle.mp ⟨c, hc⟩)
    · exact .inr (hg.eq_of_name he.1 hx hn ▸ he)
  · rintro (hr | he)
    · obtain ⟨c, hc⟩ := hsettle.mpr hr
      exact ⟨c, references_keeps hc⟩
    · exact hasContext_references he _

theorem via_of_not_alternate (hg : g.Distinct) (ho : opts.alternate = false) (hx : x ∈ g.elements)
    (hk : x.kind ≠ .loop) (hc : (propagate g opts).context? x.name = some c) :
    (Reached g opts x → c.via = .connector) ∧ (¬Reached g opts x → c.via = .reference) := by
  by_cases hl : g.loops = []
  · exact absurd ⟨c, hc⟩ (not_hasContext_of_no_loops hl)
  have hsettle := hasContext_settle_seed_iff opts hg hx hk
  rw [propagate_of_not_alternate hl ho] at hc
  obtain hc | ⟨hnone, e, -, -, hvia⟩ := context?_cases_of_places (references_run g _) hc
  · exact ⟨fun _ ↦ connector_settle_seed _ hc, fun hr ↦ absurd (hsettle.mp ⟨c, hc⟩) hr⟩
  · refine ⟨fun hr ↦ ?_, fun _ ↦ hvia⟩
    obtain ⟨c', hc'⟩ := hsettle.mpr hr
    rw [hnone] at hc'
    cases hc'

theorem hasContext_of_alternate (hg : g.Distinct) (ho : opts.alternate = true)
    (hx : x ∈ g.elements) (hk : x.kind ≠ .loop) :
    (propagate g opts).HasContext x.name ↔ Reached g opts x ∨ Downstream g opts x := by
  by_cases hl : g.loops = []
  · refine iff_of_false (not_hasContext_of_no_loops hl)
      (not_or.mpr ⟨not_reached_of_no_loops hl, ?_⟩)
    rintro ⟨e, he, -⟩
    exact not_eligible_of_no_loops hl he
  rw [propagate_of_alternate hl ho]
  obtain ⟨hclosed, hplaced⟩ :=
    closed_alternate hg g.elements.length (closed_settle_seed opts hg)
  constructor
  · rintro ⟨c, hc⟩
    obtain ⟨l, path, hw⟩ := hclosed.witness hg hx hc
    cases hvia : c.via with
    | connector => exact .inl (hw.reached hvia)
    | reference => exact .inr (hw.downstream hvia)
  · rintro (hr | ⟨e, he, hf⟩)
    · exact hclosed.hasContext_of_reached hg hr hk
    · exact hclosed.hasContext_of_run hg (.inr (hplaced e he)) hf hk

/-- Being in a loop is being reachable. Without alternation an element that is no loop has a context
exactly if contexts reach it from a loop or it mentions the variable of one, and it has been found
along connectors exactly in the first case. With alternation it has a context exactly if contexts
reach it from a loop or from an element that mentions the variable of one. -/
theorem hasContext_iff_reachable (md : Metadata) (opts : Options) {x : Element}
    (hx : x ∈ (Graph.build md).elements) (hk : x.kind ≠ .loop) :
    (opts.alternate = false →
      ((propagate (Graph.build md) opts).HasContext x.name ↔
        Reached (Graph.build md) opts x ∨ Eligible (Graph.build md) x) ∧
      ∀ c, (propagate (Graph.build md) opts).context? x.name = some c →
        (Reached (Graph.build md) opts x → c.via = .connector) ∧
        (¬Reached (Graph.build md) opts x → c.via = .reference)) ∧
    (opts.alternate = true →
      ((propagate (Graph.build md) opts).HasContext x.name ↔
        Reached (Graph.build md) opts x ∨ Downstream (Graph.build md) opts x)) := by
  have hg := Graph.distinct_build md
  refine ⟨fun ho ↦ ⟨hasContext_of_not_alternate hg ho hx hk, fun c hc ↦ ?_⟩, fun ho ↦ ?_⟩
  · exact via_of_not_alternate hg ho hx hk hc
  · exact hasContext_of_alternate hg ho hx hk

def lastStep : Element := ⟨"Send", .actionCall, .actionCall "" "" [], []⟩

theorem last_step_only_with_alternation :
    lastStep ∈ (Graph.build nestedFlow).elements ∧ lastStep.kind ≠ .loop ∧
    ¬(Reached (Graph.build nestedFlow) {} lastStep ∨ Eligible (Graph.build nestedFlow) lastStep) ∧
    (Reached (Graph.build nestedFlow) { alternate := true } lastStep ∨
      Downstream (Graph.build nestedFlow) { alternate := true } lastStep) := by
  have hx : lastStep ∈ (Graph.build nestedFlow).elements := by decide
  have hk : lastStep.kind ≠ .loop := by decide
  have hnone : (propagate (Graph.build nestedFlow) {}).context? "Send" = none := by decide +kernel
  have hsome :
      ((propagate (Graph.build nestedFlow) { alternate := true }).context? "Send").isSome := by
    decide +kernel
  refine ⟨hx, hk, fun h ↦ ?_, ?_⟩
  · obtain ⟨c, hc⟩ := ((hasContext_iff_reachable nestedFlow {} hx hk).1 rfl).1.mpr h
    rw [show lastStep.name = "Send" from rfl, hnone] at hc
    cases hc
  · exact ((hasContext_iff_reachable nestedFlow { alternate := true } hx hk).2 rfl).mp
      (Option.isSome_iff_exists.mp hsome)

end FlowAudit.Loops
