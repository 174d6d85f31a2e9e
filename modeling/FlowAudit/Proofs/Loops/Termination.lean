import FlowAudit.Proofs.Loops.Membership

namespace FlowAudit.Loops

open Relation

variable {g : Graph} {opts : Options} {s s' : State} {r r' : State × Bool}

/-- Reference passes and scans in turn, without a limit, until one of them changes nothing. -/
inductive Alternates (g : Graph) (opts : Options) : State → State → Prop
  | nonePlaced {s : State} (h : (references g s).2 = false) : Alternates g opts s (references g s).1
  | nonePassed {s s' : State} (h : (references g s).2 = true)
      (hs : Settles g opts (references g s).1 (s', false)) : Alternates g opts s s'
  | again {s m s' : State} (h : (references g s).2 = true)
      (hs : Settles g opts (references g s).1 (m, true)) (hrest : Alternates g opts m s') :
      Alternates g opts s s'

/-- The propagation comes to an end in the state, though nothing limits its scans and passes. -/
inductive Ends (g : Graph) (opts : Options) : State → Prop
  | noLoops (hl : g.loops = []) : Ends g opts {}
  | once {r : State × Bool} (hl : g.loops ≠ []) (ho : opts.alternate = false)
      (hs : Settles g opts (seed g opts {}) r) : Ends g opts (references g r.1).1
  | inTurn {r : State × Bool} {s : State} (hl : g.loops ≠ []) (ho : opts.alternate = true)
      (hs : Settles g opts (seed g opts {}) r) (ha : Alternates g opts r.1 s) : Ends g opts s

section Unique

theorem Settles.unique (h : Settles g opts s r) (h' : Settles g opts s r') : r = r' := by
  induction h generalizing r' with
  | last h =>
    cases h' with
    | last => rfl
    | again hc => rw [h] at hc; cases hc
  | again h _ ih =>
    cases h' with
    | last hc => rw [h] at hc; cases hc
    | again _ hrest => rw [ih hrest]

theorem Alternates.unique {t t' : State} (h : Alternates g opts s t) (h' : Alternates g opts s t') :
    t = t' := by
  induction h generalizing t' with
  | nonePlaced h =>
    cases h' with
    | nonePlaced => rfl
    | nonePassed hc => rw [h] at hc; cases hc
    | again hc => rw [h] at hc; cases hc
  | nonePassed h hs =>
    cases h' with
    | nonePlaced hc => rw [h] at hc; cases hc
    | nonePassed _ hs' => exact congrArg Prod.fst (hs.unique hs')
    | again _ hs' => cases hs.unique hs'
  | again h hs _ ih =>
    cases h' with
    | nonePlaced hc => rw [h] at hc; cases hc
    | nonePassed _ hs' => cases hs.unique hs'
    | again _ hs' hrest =>
      obtain rfl := congrArg Prod.fst (hs.unique hs')
      exact ih hrest

theorem Ends.unique (h : Ends g opts s) (h' : Ends g opts s') : s = s' := by
  cases h with
  | noLoops hl =>
    cases h' with
    | noLoops => rfl
    | once hl' => exact absurd hl hl'
    | inTurn hl' => exact absurd hl hl'
  | once hl ho hs =>
    cases h' with
    | noLoops hl' => exact absurd hl' hl
    | once _ _ hs' => rw [hs.unique hs']
    | inTurn _ ho' => rw [ho] at ho'; cases ho'
  | inTurn hl ho hs ha =>
    cases h' with
    | noLoops hl' => exact absurd hl' hl
    | once _ ho' => rw [ho] at ho'; cases ho'
    | inTurn _ _ hs' ha' =>
      obtain rfl := hs.unique hs'
      exact ha.unique ha'

end Unique

section Progress

/-- A pass finds nothing to place when all elements that mention a loop's variable have contexts. -/
theorem references_of_placed (h : ∀ e, Eligible g e → s.HasContext e.name) :
    references g s = (s, false) := by
  refine List.foldlRecOn (motive := (· = (s, false))) g.elements (placeByReference g) rfl ?_
  rintro p rfl e he
  obtain hsame | ⟨loop, hk, hnone, hl, -⟩ := placeByReference_cases g (s, false) e
  · exact hsame
  · obtain ⟨l, hl, -, hm⟩ := mentions_of_referencedLoop? hl
    obtain ⟨c, hc⟩ := h e ⟨he, hk, l, hl, hm⟩
    rw [hnone] at hc
    cases hc

/-- One pass places all that there is to place, so that the second one is the last. -/
theorem alternates_alternate (hg : g.Distinct) (h : ReflTransGen (Moves g opts) {} s) {fuel : Nat}
    (hfuel : 0 < fuel) : Alternates g opts s (alternate g opts fuel s) := by
  obtain ⟨fuel, rfl⟩ : ∃ n, fuel = n + 1 := ⟨fuel - 1, by omega⟩
  have hrefs := h.trans (moves_of_continues (references_continues g opts s))
  have hsettles : Settles g opts _ (settle g opts (bound g) _) :=
    settles_settle hg hrefs (by omega)
  rw [alternate]
  split
  · next m hr =>
    have hm : m = (references g s).1 := by rw [hr]
    exact hm ▸ .nonePlaced (by rw [hr])
  · next m hr =>
    have hplaced : (references g s).2 = true := by rw [hr]
    obtain rfl : m = (references g s).1 := by rw [hr]
    split
    · next m hs => exact .nonePassed hplaced (hs ▸ hsettles)
    · next m hs =>
      have hsettle := moves_of_continues (settle_continues g opts (bound g) (references g s).1)
      rw [hs] at hsettle
      have hnone : references g m = (m, false) := references_of_placed fun e he ↦
        hasContext_run hsettle (hasContext_references he s)
      have hstop : alternate g opts fuel m = m := by
        unfold alternate
        simp only [hnone]
      change Alternates g opts s (alternate g opts fuel m)
      rw [hstop]
      refine .again hplaced (hs ▸ hsettles) ?_
      have hlast : Alternates g opts m (references g m).1 := .nonePlaced (by rw [hnone])
      rwa [hnone] at hlast

theorem ends_propagate (hg : g.Distinct) (opts : Options) : Ends g opts (propagate g opts) := by
  by_cases hl : g.loops = []
  · rw [propagate_of_no_loops hl]
    exact .noLoops hl
  · have hseed := moves_of_claims (seed_run g opts {})
    have hsettles : Settles g opts _ (settle g opts (bound g) _) :=
      settles_settle hg hseed (by omega)
    cases ho : opts.alternate with
    | false =>
      rw [propagate_of_not_alternate hl ho]
      exact .once hl ho hsettles
    | true =>
      have hsome : 0 < g.elements.length := by
        obtain ⟨l, hmem⟩ := List.exists_mem_of_ne_nil _ hl
        exact List.length_pos_of_mem (Graph.mem_loops.mp hmem).1
      have hrun := hseed.trans (moves_of_continues (settle_continues g opts (bound g) (seed g opts {})))
      rw [propagate_of_alternate hl ho]
      exact .inTurn hl ho hsettles (alternates_alternate hg hrun hsome)

end Progress

section Rounds

theorem rounds_passOn (p : State × Bool) (e : Element) :
    (passOn g opts p e).1.rounds = p.1.rounds := by
  cases hc : p.1.context? e.name with
  | none => rw [passOn_of_none hc]
  | some c =>
    rw [passOn_of_some hc]
    refine List.foldlRecOn (motive := fun q : State × Bool ↦ q.1.rounds = p.1.rounds) _ _ rfl ?_
    intro q hq t _
    obtain h | ⟨cand, -, -, h⟩ := handOver_cases g e c q t
    · rwa [h]
    · rw [h]
      exact hq

theorem rounds_scan (s : State) : (scan g opts s).1.rounds = s.rounds + 1 :=
  List.foldlRecOn (motive := fun p : State × Bool ↦ p.1.rounds = s.rounds + 1) g.elements
    (passOn g opts) rfl fun p hp e _ ↦ (rounds_passOn p e).trans hp

theorem rounds_references (s : State) : (references g s).1.rounds = s.rounds := by
  refine List.foldlRecOn (motive := fun p : State × Bool ↦ p.1.rounds = s.rounds) g.elements
    (placeByReference g) rfl fun p hp e _ ↦ ?_
  obtain h | ⟨loop, -, -, -, h⟩ := placeByReference_cases g p e
  · rwa [h]
  · rw [h]
    exact hp

theorem rounds_seed (g : Graph) (opts : Options) : (seed g opts {}).rounds = 0 := by
  refine preserved_of_reflTransGen (P := fun s : State ↦ s.rounds = 0) ?_ (seed_run g opts {}) rfl
  rintro s - ⟨-, -, -, -⟩ hs
  exact hs

theorem grows_references (s : State) : Grows (s, false) (references g s) :=
  Grows.foldl grows_placeByReference _ _

theorem Settles.rounds_le (h : Settles g opts s r) :
    r.1.rounds + s.log.length ≤ s.rounds + 1 + r.1.log.length := by
  induction h with
  | @last s h =>
    rw [rounds_scan]
    have hle : s.log.length ≤ (scan g opts s).1.log.length := (grows_scan s).length_le
    omega
  | @again s r h _ ih =>
    rw [rounds_scan] at ih
    have hlt : s.log.length < (scan g opts s).1.log.length :=
      (grows_scan s).length_lt_of_changed rfl h
    simp only at ih ⊢
    omega

/-- The scan that changes nothing is made up for by the assignment of the pass before it. -/
theorem Alternates.rounds_le (h : Alternates g opts s s') :
    s'.rounds + s.log.length ≤ s.rounds + s'.log.length := by
  induction h with
  | @nonePlaced s h =>
    rw [rounds_references]
    have hle : s.log.length ≤ (references g s).1.log.length := (grows_references s).length_le
    omega
  | @nonePassed s s' h hs =>
    have hrounds := hs.rounds_le
    rw [rounds_references] at hrounds
    have hlt : s.log.length < (references g s).1.log.length :=
      (grows_references s).length_lt_of_changed rfl h
    simp only at hrounds
    omega
  | @again s m s' h hs _ ih =>
    have hrounds := hs.rounds_le
    rw [rounds_references] at hrounds
    have hlt : s.log.length < (references g s).1.log.length :=
      (grows_references s).length_lt_of_changed rfl h
    simp only at hrounds
    omega

theorem Ends.rounds_le (h : Ends g opts s) : s.rounds ≤ s.log.length + 1 := by
  cases h with
  | noLoops => exact Nat.zero_le _
  | @once r _ _ hs =>
    have hrounds := hs.rounds_le
    rw [rounds_seed] at hrounds
    have hle : r.1.log.length ≤ (references g r.1).1.log.length := (grows_references r.1).length_le
    rw [rounds_references]
    omega
  | inTurn _ _ hs ha =>
    have hrounds := hs.rounds_le
    rw [rounds_seed] at hrounds
    have hturns := ha.rounds_le
    omega

end Rounds

/-- On the graph of any flow the propagation ends, in one state only, although nothing limits its scans
and passes; all in all it makes no more assignments than there are elements, loops and depths together,
and at most one scan more than that. -/
theorem propagation_ends_within_bound (md : Metadata) (opts : Options) :
    let g := Graph.build md
    (∀ s, Ends g opts s ↔ s = propagate g opts) ∧
      (propagate g opts).log.length ≤ g.elements.length * g.loops.length * g.loops.length ∧
      (propagate g opts).rounds ≤ g.elements.length * g.loops.length * g.loops.length + 1 := by
  intro g
  have hends : Ends g opts (propagate g opts) := ends_propagate (Graph.distinct_build md) opts
  have hlog : (propagate g opts).log.length ≤ bound g :=
    log_length_le (Graph.distinct_build md) (propagate_run g opts)
  refine ⟨fun s ↦ ⟨fun h ↦ h.unique hends, fun h ↦ h ▸ hends⟩, hlog, ?_⟩
  exact hends.rounds_le.trans (Nat.add_le_add_right hlog 1)

end FlowAudit.Loops
