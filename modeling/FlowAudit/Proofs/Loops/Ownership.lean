import FlowAudit.Loops.Ownership
import FlowAudit.Proofs.Loops.Chain
import FlowAudit.Proofs.Loops.FirstClaim
import FlowAudit.Proofs.Loops.Witness

namespace FlowAudit.Loops

open Relation

variable {g : Graph} {opts : Options} {s s' : State} {a b t : String} {c : Context}

def Owned (owners : Owners) (inner outer : String) : Prop := (inner, outer) ∈ owners

def Cyclic (owners : Owners) : Prop := ∃ loop, TransGen (Owned owners) loop loop

theorem State.encloses_iff {outer inner : String} :
    s.encloses outer inner = true ↔ TransGen (Points s.owner?) inner outer :=
  Chain.reaches_iff

theorem Points.isLoop (hg : g.Distinct) (hrun : ReflTransGen (Moves g opts) {} s)
    (h : Points s.owner? a b) : g.isLoop b = true := by
  obtain ⟨c, hc, rfl⟩ := State.owner?_eq_some.mp h
  obtain ⟨_, -, -, l, _, hw⟩ := witnessed_run hg hrun hc
  obtain ⟨hl, hk⟩ := Graph.mem_loops.mp hw.isLoop
  rw [hw.loop]
  exact (hg.isLoop_iff hl).mpr hk

theorem isLoop_of_transGen (hg : g.Distinct) (hrun : ReflTransGen (Moves g opts) {} s)
    (h : TransGen (Points s.owner?) a b) : g.isLoop b = true := by
  obtain ⟨x, -, hxb⟩ := TransGen.tail'_iff.mp h
  exact hxb.isLoop hg hrun

/-- An assigned context closes no circle if its loop does not lie in the element. -/
theorem circle_of_assign {name : String} (hne : c.loop ≠ name)
    (hno : ¬TransGen (Points s.owner?) c.loop name)
    (h : TransGen (Points (s.assign name c).owner?) a a) : TransGen (Points s.owner?) a a := by
  refine circle_of_redirect (t := name) (c := c.loop) (fun x y hxy hx ↦ ?_) (fun y hy ↦ ?_)
    (fun hback ↦ ?_) h
  · rwa [Points, State.owner?_assign, if_neg hx] at hxy
  · rw [Points, State.owner?_assign, if_pos rfl] at hy
    exact (Option.some.inj hy).symm
  · obtain heq | hback := reflTransGen_iff_eq_or_transGen.mp hback
    · exact hne heq.symm
    · exact hno hback

/-- No move after the claims closes a circle. A loop takes no context of a loop that it encloses, and
to an element that is no loop no owner leads. -/
theorem Continues.circle (hg : g.Distinct) (hrun : ReflTransGen (Moves g opts) {} s)
    (h : Continues g opts s s') (hc : TransGen (Points s'.owner?) a a) :
    TransGen (Points s.owner?) a a := by
  obtain h | h := h
  · cases h with
    | round => exact hc
    | @take e c cand t he hctx ht hcand ha =>
      have hloop : cand.loop ≠ t := by
        obtain ⟨hloop, hself, ⟨-, rfl⟩ | ⟨-, rfl⟩⟩ := candidate?_eq_some.mp hcand
        · exact hself.symm
        · exact hloop.symm
      refine circle_of_assign hloop (fun hback ↦ ?_) hc
      exact (accepts_iff.mp ha).2.1 ⟨isLoop_of_transGen hg hrun hback, State.encloses_iff.mpr hback⟩
  · cases h with
    | @place e loop he hk hs href =>
      have hnot : ¬g.isLoop e.name = true := fun hl ↦
        takesValues_ne_loop hk ((hg.isLoop_iff he).mp hl)
      obtain ⟨l, hl, rfl, -⟩ := mentions_of_referencedLoop? href
      obtain ⟨hle, hlk⟩ := Graph.mem_loops.mp hl
      have hne : l.name ≠ e.name := fun hn ↦ hnot (hn ▸ (hg.isLoop_iff hle).mpr hlk)
      exact circle_of_assign (c := mentioning e l.name) hne
        (fun hback ↦ hnot (isLoop_of_transGen hg hrun hback)) hc

theorem circle_of_continues (hg : g.Distinct) (hs : ReflTransGen (Moves g opts) {} s)
    (h : ReflTransGen (Continues g opts) s s') (hc : TransGen (Points s'.owner?) a a) :
    TransGen (Points s.owner?) a a := by
  have hinv := preserved_of_reflTransGen (P := fun s' ↦ ReflTransGen (Moves g opts) {} s' ∧
      (TransGen (Points s'.owner?) a a → TransGen (Points s.owner?) a a))
    (fun _ _ hmove hp ↦ ⟨hp.1.tail (.inr hmove), fun hc ↦ hp.2 (hmove.circle hg hp.1 hc)⟩)
    h ⟨hs, id⟩
  exact hinv.2 hc

/-- The circles of owners in the end are those of the first claims. -/
theorem circle_propagate_iff (hg : g.Distinct) :
    TransGen (Points (propagate g opts).owner?) a a ↔ TransGen (Points (claimant? g opts)) a a := by
  have hcontinues := propagate_continues g opts
  constructor
  · intro hc
    have hseed := circle_of_continues hg (moves_of_claims (seed_run g opts {})) hcontinues hc
    rwa [funext (owner?_seed g opts)] at hseed
  · apply TransGen.mono
    intro x y hxy
    obtain ⟨c, hc, hloop, -⟩ := (stands_of_continues hcontinues hxy).context?
    exact State.owner?_eq_some.mpr ⟨c, hc, hloop⟩

theorem owned_ownersOf_iff (hg : g.Distinct) (hrun : ReflTransGen (Moves g opts) {} s) :
    Owned (ownersOf g s.context?) a b ↔ g.isLoop a = true ∧ Points s.owner? a b := by
  simp only [Owned, ownersOf, List.mem_filterMap]
  constructor
  · rintro ⟨l, hl, hmatch⟩
    obtain ⟨hle, hlk⟩ := Graph.mem_loops.mp hl
    cases hc : s.context? l.name with
    | none => simp [hc] at hmatch
    | some c =>
      simp only [hc, Option.ite_none_right_eq_some, Option.some.injEq, Prod.mk.injEq] at hmatch
      obtain ⟨-, rfl, rfl⟩ := hmatch
      exact ⟨(hg.isLoop_iff hle).mpr hlk, State.owner?_eq_some.mpr ⟨c, hc, rfl⟩⟩
  · rintro ⟨hloop, hpoints⟩
    obtain ⟨c, hc, rfl⟩ := State.owner?_eq_some.mp hpoints
    obtain ⟨x, hx, rfl, l, _, hw⟩ := witnessed_run hg hrun hc
    refine ⟨x, Graph.mem_loops.mpr ⟨hx, (hg.isLoop_iff hx).mp hloop⟩, ?_⟩
    simp [hc, hw.isInLoop, hw.ne]

/-- The circles that owners tell of are those of all contexts: whatever lies on one is a loop. -/
theorem circle_ownersOf_iff (hg : g.Distinct) (hrun : ReflTransGen (Moves g opts) {} s) :
    TransGen (Owned (ownersOf g s.context?)) a a ↔ TransGen (Points s.owner?) a a := by
  constructor
  · apply TransGen.mono
    intro x y hxy
    exact ((owned_ownersOf_iff hg hrun).mp hxy).2
  · intro hc
    have hgen : ∀ x, TransGen (Points s.owner?) x a → g.isLoop x = true →
        TransGen (Owned (ownersOf g s.context?)) x a := by
      intro x hx
      induction hx using TransGen.head_induction_on with
      | single hxa => exact fun hloop ↦ .single ((owned_ownersOf_iff hg hrun).mpr ⟨hloop, hxa⟩)
      | head hxy _ ih =>
        exact fun hloop ↦ .head ((owned_ownersOf_iff hg hrun).mpr ⟨hloop, hxy⟩)
          (ih (hxy.isLoop hg hrun))
    exact hgen a hc (isLoop_of_transGen hg hrun hc)

/-- Owners run in a circle exactly if they do so after the claims alone. Moreover a loop comes to own
itself exactly if that follows from who is the first to claim whom. -/
theorem owners_cyclic_iff (md : Metadata) (opts : Options) :
    (Cyclic (ownersOf (Graph.build md) (propagate (Graph.build md) opts).context?) ↔
      Cyclic (ownersOf (Graph.build md) (seed (Graph.build md) opts {}).context?)) ∧
    ∀ loop, TransGen (Owned (ownersOf (Graph.build md)
        (propagate (Graph.build md) opts).context?)) loop loop ↔
      TransGen (Points (claimant? (Graph.build md) opts)) loop loop := by
  have hg := Graph.distinct_build md
  have hfinal (loop : String) :=
    (circle_ownersOf_iff (a := loop) hg (propagate_run (Graph.build md) opts)).trans
      (circle_propagate_iff hg)
  have hseed (loop : String) :=
    circle_ownersOf_iff (a := loop) hg (moves_of_claims (seed_run (Graph.build md) opts {}))
  rw [funext (owner?_seed (Graph.build md) opts)] at hseed
  exact ⟨exists_congr fun loop ↦ (hfinal loop).trans (hseed loop).symm, hfinal⟩

end FlowAudit.Loops
