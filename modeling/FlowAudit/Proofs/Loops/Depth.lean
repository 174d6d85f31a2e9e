import FlowAudit.Proofs.Loops.Membership
import FlowAudit.Proofs.Loops.Ownership

namespace FlowAudit.Loops

open Relation

variable {g : Graph} {opts : Options} {s s' : State} {e : Element} {c cand outer : Context}
  {t loop name : String}

section History

def State.depths (s : State) (name : String) : List Nat :=
  (s.log.filter (·.name == name)).map (·.context.depth)

theorem State.depths_assign_self (s : State) : (s.assign t c).depths t = c.depth :: s.depths t := by
  simp [State.depths]

theorem State.depths_assign_of_ne (s : State) (h : t ≠ name) :
    (s.assign name c).depths t = s.depths t := by
  simp [State.depths, h.symm]

theorem State.mem_depths {d : Nat} :
    d ∈ s.depths t ↔ ∃ a ∈ s.log, a.name = t ∧ a.context.depth = d := by
  simp [State.depths, and_assoc]

theorem State.depths_of_none (h : s.context? t = none) : s.depths t = [] := by
  apply List.eq_nil_iff_forall_not_mem.mpr
  intro d hd
  obtain ⟨a, ha, hn, -⟩ := State.mem_depths.mp hd
  exact State.context?_eq_none.mp h a ha hn

theorem State.exists_older (h : s.context? t = some c) :
    ∃ older, s.log.filter (·.name == t) = ⟨t, c⟩ :: older := by
  obtain ⟨⟨n, c'⟩, hfind, rfl⟩ := Option.map_eq_some_iff.mp h
  have hn : n = t := by simpa using List.find?_some hfind
  rw [← List.head?_filter, hn] at hfind
  exact ⟨_, List.eq_cons_of_mem_head? hfind⟩

theorem State.exists_depths (h : s.context? t = some c) :
    ∃ older, s.depths t = c.depth :: older := by
  obtain ⟨older, hlog⟩ := State.exists_older h
  exact ⟨older.map (·.context.depth), by rw [State.depths, hlog, List.map_cons]⟩

end History

section Stemming

/-- Every depth is that of the first level, or one below a depth that the loop has held. -/
def State.Stems (s : State) : Prop :=
  ∀ a ∈ s.log, a.context.depth = 1 ∨
    ∃ b ∈ s.log, b.name = a.context.loop ∧ a.context.depth = b.context.depth + 1

theorem State.Stems.assign (hs : s.Stems) (hc : c.depth = 1 ∨
    ∃ b ∈ s.log, b.name = c.loop ∧ c.depth = b.context.depth + 1) : (s.assign t c).Stems := by
  intro a ha
  obtain rfl | ha := List.mem_cons.mp ha
  · exact hc.imp_right fun ⟨b, hb, hstem⟩ ↦ ⟨b, List.mem_cons_of_mem _ hb, hstem⟩
  · exact (hs a ha).imp_right fun ⟨b, hb, hstem⟩ ↦ ⟨b, List.mem_cons_of_mem _ hb, hstem⟩

theorem Moves.stems (h : Moves g opts s s') (hs : s.Stems) : s'.Stems := by
  obtain ⟨-, -, -, -⟩ | h | ⟨-, -, -, -⟩ := h
  · exact hs.assign (.inl rfl)
  · cases h with
    | round => exact hs
    | take _ hc _ hcand _ =>
      have hmem := State.mem_log_of_context? hc
      obtain ⟨-, -, ⟨-, rfl⟩ | ⟨-, rfl⟩⟩ := candidate?_eq_some.mp hcand
      · exact hs.assign (.inr ⟨_, hmem, rfl, rfl⟩)
      · exact hs.assign (hs _ hmem)
  · exact hs.assign (.inl rfl)

theorem stems_run (h : ReflTransGen (Moves g opts) {} s) : s.Stems :=
  preserved_of_reflTransGen (P := State.Stems) (fun _ _ ↦ Moves.stems) h (by simp [State.Stems])

end Stemming

section Pace

/-- The element has held the first level and then, in the order of the loop, levels one below those
of the loop. -/
def State.KeepsPace (s : State) (t loop : String) : Prop :=
  ∃ ds : List Nat, s.depths t = ds.map (· + 1) ++ [1] ∧ ds.Sublist (s.depths loop)

theorem State.KeepsPace.assign_of_ne (h : s.KeepsPace t loop) (hne : t ≠ name) :
    (s.assign name c).KeepsPace t loop := by
  obtain ⟨ds, hds, hsub⟩ := h
  refine ⟨ds, by rw [State.depths_assign_of_ne s hne, hds], ?_⟩
  by_cases hl : loop = name
  · subst hl
    rw [State.depths_assign_self]
    exact hsub.cons _
  · rwa [State.depths_assign_of_ne s hl]

theorem State.KeepsPace.follow (h : s.KeepsPace t loop) (hne : t ≠ loop)
    (hc : s.context? loop = some c) (hdepth : cand.depth = c.depth + 1)
    (hnew : cand.depth ∉ s.depths t) : (s.assign t cand).KeepsPace t loop := by
  obtain ⟨ds, hds, hsub⟩ := h
  obtain ⟨older, hloop⟩ := State.exists_depths hc
  have hmem : c.depth ∉ ds := by
    intro hmem
    rw [hds, hdepth] at hnew
    exact hnew (List.mem_append_left _ (List.mem_map.mpr ⟨_, hmem, rfl⟩))
  have holder : ds.Sublist older := by
    rw [hloop, List.sublist_cons_iff] at hsub
    obtain hsub | ⟨r, rfl, -⟩ := hsub
    · exact hsub
    · exact absurd List.mem_cons_self hmem
  refine ⟨c.depth :: ds, ?_, ?_⟩
  · rw [State.depths_assign_self, hds, hdepth]
    rfl
  · rw [State.depths_assign_of_ne s hne.symm, hloop]
    exact holder.cons_cons _

/-- If the loop has held its present depth once only, an element that has followed it there is still
there. -/
theorem State.KeepsPace.depth_eq (h : s.KeepsPace t loop) (hc : s.context? t = some c)
    {older : List Nat} (hloop : s.depths loop = outer.depth :: older) (honce : outer.depth ∉ older)
    (hpos : 0 < outer.depth) (hheld : outer.depth + 1 ∈ s.depths t) :
    c.depth = outer.depth + 1 := by
  obtain ⟨ds, hds, hsub⟩ := h
  have hmem : outer.depth ∈ ds := by
    rw [hds, List.mem_append, List.mem_singleton] at hheld
    obtain hheld | hheld := hheld
    · obtain ⟨d, hd, heq⟩ := List.mem_map.mp hheld
      exact Nat.succ.inj heq ▸ hd
    · omega
  rw [hloop, List.sublist_cons_iff] at hsub
  obtain hsub | ⟨r, rfl, -⟩ := hsub
  · exact absurd (hsub.subset hmem) honce
  · obtain ⟨rest, hdepths⟩ := State.exists_depths hc
    rw [hds, List.map_cons, List.cons_append] at hdepths
    exact (List.cons.inj hdepths).1.symm

end Pace

section Turn

def passed (e : Element) (c : Context) : String × Nat :=
  if e.kind = .loop then (e.name, c.depth + 1) else (c.loop, c.depth)

theorem candidate?_passed (h : candidate? g e c t = some cand) :
    (cand.loop, cand.depth) = passed e c := by
  obtain ⟨-, -, ⟨hk, rfl⟩ | ⟨hk, rfl⟩⟩ := candidate?_eq_some.mp h
  · rw [passed, if_pos hk]
    rfl
  · rw [passed, if_neg hk]

theorem State.hasHeld_of_subset {depth : Nat} (hlog : s.log ⊆ s'.log)
    (h : s.hasHeld t loop depth = true) : s'.hasHeld t loop depth = true := by
  obtain ⟨a, ha, hheld⟩ := State.hasHeld_iff.mp h
  exact State.hasHeld_iff.mpr ⟨a, hlog ha, hheld⟩

theorem log_subset_of_continues (h : ReflTransGen (Continues g opts) s s') : s.log ⊆ s'.log :=
  preserved_of_reflTransGen (P := fun s' ↦ s.log ⊆ s'.log)
    (fun _ _ hm hs ↦ List.Subset.trans hs (Moves.log_subset (.inr hm))) h (List.Subset.refl _)

variable {ts : List String} {p : State × Bool}

theorem context?_foldl_handOver (hc : p.1.context? e.name = some c) (ts : List String) :
    (ts.foldl (handOver g e c) p).1.context? e.name = some c :=
  List.foldlRecOn (motive := fun q : State × Bool ↦ q.1.context? e.name = some c) ts _ hc
    fun q hq u _ ↦ (handOver_context? g e c q u).trans hq

/-- While an element has its turn, all that is assigned is what it passes on. -/
theorem log_foldl_handOver (ts : List String) (p : State × Bool) :
    ∀ a ∈ (ts.foldl (handOver g e c) p).1.log, a ∈ p.1.log ∨
      (a.context.loop, a.context.depth) = passed e c ∧ a.context.depth ≤ g.loops.length := by
  apply List.foldlRecOn (motive := fun q : State × Bool ↦ ∀ a ∈ q.1.log, a ∈ p.1.log ∨
    (a.context.loop, a.context.depth) = passed e c ∧ a.context.depth ≤ g.loops.length)
  · intro a ha
    exact .inl ha
  intro q hq u _ a ha
  obtain h | ⟨cand, hcand, haccepts, h⟩ := handOver_cases g e c q u
  · rw [h] at ha
    exact hq a ha
  · rw [h] at ha
    obtain rfl | ha := List.mem_cons.mp ha
    · exact .inr ⟨candidate?_passed hcand, (accepts_iff.mp haccepts).1⟩
    · exact hq a ha

end Turn

section Claimed

variable (hg : g.Distinct) (hacyclic : ∀ a, ¬TransGen (Points (claimant? g opts)) a a)
include hg hacyclic

theorem not_transGen_of_claimant (hrun : ReflTransGen (Continues g opts) (seed g opts {}) s)
    (hclaim : claimant? g opts t = some loop) : ¬TransGen (Points s.owner?) loop t := by
  intro hback
  obtain ⟨c, hc, hloop, -⟩ := (stands_of_continues hrun hclaim).context?
  have hup : Points s.owner? t loop := State.owner?_eq_some.mpr ⟨c, hc, hloop⟩
  have hcircle := circle_of_continues hg (moves_of_claims (seed_run g opts {})) hrun
    (hback.tail hup)
  rw [funext (owner?_seed g opts)] at hcircle
  exact hacyclic loop hcircle

/-- A claimed element takes what its loop passes to it, unless it has held that before. -/
theorem accepts_or_hasHeld (hrun : ReflTransGen (Continues g opts) (seed g opts {}) s)
    (hclaim : claimant? g opts t = some loop) (hloop : cand.loop = loop)
    (hdepth : cand.depth ≤ g.loops.length) :
    accepts g s t cand = true ∨ s.hasHeld t cand.loop cand.depth = true := by
  by_cases hheld : s.hasHeld t cand.loop cand.depth = true
  · exact .inr hheld
  · refine .inl (accepts_iff.mpr ⟨hdepth, fun hencloses ↦ ?_, fun old hold _ ↦ ?_, hheld⟩)
    · rw [hloop, State.encloses_iff] at hencloses
      exact not_transGen_of_claimant hg hacyclic hrun hclaim hencloses.2
    · rw [hloop]
      exact ((stands_of_continues hrun hclaim).only _ (State.mem_log_of_context? hold) rfl).1

omit hacyclic in
theorem mem_followed_of_claimant (he : e ∈ g.elements)
    (hclaim : claimant? g opts t = some e.name) : t ∈ followed g opts e ∧ t ≠ e.name := by
  obtain ⟨before, l, after, hsplit, hname, hwants, -⟩ := claimant?_eq_some_iff.mp hclaim
  have hl : l ∈ g.loops := hsplit ▸ List.mem_append_right _ List.mem_cons_self
  obtain rfl := hg.eq_of_name (Graph.mem_loops.mp hl).1 he hname
  exact hwants

theorem candidate?_of_claimant (hrun : ReflTransGen (Continues g opts) (seed g opts {}) s)
    (he : e ∈ g.elements) (hk : e.kind = .loop) (hc : s.context? e.name = some c)
    (hclaim : claimant? g opts t = some e.name) :
    candidate? g e c t = some (entering g e.name (c.depth + 1) t) := by
  refine candidate?_eq_some.mpr ⟨?_, (mem_followed_of_claimant hg he hclaim).2, .inl ⟨hk, rfl⟩⟩
  rintro rfl
  exact not_transGen_of_claimant hg hacyclic hrun hclaim
    (.single (State.owner?_eq_some.mpr ⟨c, hc, rfl⟩))

/-- After a loop's turn, all elements that it claims have held what it passes on. -/
theorem hasHeld_after_turn {p : State × Bool}
    (hrun : ReflTransGen (Continues g opts) (seed g opts {}) p.1)
    (he : e ∈ g.elements) (hk : e.kind = .loop) (hc : p.1.context? e.name = some c)
    (hclaim : claimant? g opts t = some e.name) (hdepth : c.depth + 1 ≤ g.loops.length) :
    ((followed g opts e).foldl (handOver g e c) p).1.hasHeld t e.name (c.depth + 1) = true := by
  obtain ⟨before, after, hsplit⟩ := List.append_of_mem (mem_followed_of_claimant hg he hclaim).1
  rw [hsplit, List.foldl_append, List.foldl_cons]
  -- The turn comes to `t` in the state `q`, and goes on from there.
  generalize hq : before.foldl (handOver g e c) p = q
  have hcq : q.1.context? e.name = some c := hq ▸ context?_foldl_handOver hc before
  have hbefore : ReflTransGen (Passes g opts) p.1 q.1 := by
    rw [← hq]
    exact handOver_run he hc fun u hu ↦ hsplit ▸ List.mem_append_left _ hu
  have hafter : ReflTransGen (Passes g opts) (handOver g e c q t).1
      (after.foldl (handOver g e c) (handOver g e c q t)).1 :=
    handOver_run he ((handOver_context? g e c q t).trans hcq)
      fun u hu ↦ hsplit ▸ List.mem_append_right _ (List.mem_cons_of_mem _ hu)
  have hrunq := hrun.trans (continues_of_passes hbefore)
  have hcand := candidate?_of_claimant hg hacyclic hrunq he hk hcq hclaim
  refine State.hasHeld_of_subset (log_subset_of_continues (continues_of_passes hafter)) ?_
  by_cases haccepts : accepts g q.1 t (entering g e.name (c.depth + 1) t) = true
  · simp only [handOver, hcand, haccepts, if_true]
    exact State.hasHeld_assign_self q.1
  · have hheld := (accepts_or_hasHeld hg hacyclic hrunq hclaim rfl hdepth).resolve_left haccepts
    simp only [handOver, hcand, haccepts]
    exact hheld

end Claimed

/-- Whatever a loop claims keeps pace with it, and has held all that anything in the loop has
held. -/
structure Paced (g : Graph) (opts : Options) (s : State) : Prop where
  run : ReflTransGen (Continues g opts) (seed g opts {}) s
  shared : ∀ a ∈ s.log, ∀ t, claimant? g opts t = some a.context.loop →
    s.hasHeld t a.context.loop a.context.depth = true
  pace : ∀ t loop, claimant? g opts t = some loop → s.KeepsPace t loop

namespace Paced

theorem depths_of_claims (h : ReflTransGen (Claims g opts) {} s) :
    ∀ a ∈ s.log, s.depths a.name = [1] := by
  refine preserved_of_reflTransGen (P := fun s ↦ ∀ a ∈ s.log, s.depths a.name = [1]) ?_ h (by simp)
  rintro s - ⟨-, -, -, hnone⟩ hs a ha
  change (s.assign _ _).depths a.name = [1]
  obtain rfl | ha := List.mem_cons.mp ha
  · rw [State.depths_assign_self, State.depths_of_none hnone]
    rfl
  · rw [State.depths_assign_of_ne s (State.context?_eq_none.mp hnone a ha)]
    exact hs a ha

theorem start (g : Graph) (opts : Options) : Paced g opts (seed g opts {}) := by
  have hdepths := depths_of_claims (seed_run g opts {})
  refine ⟨.refl, ?_, ?_⟩
  · intro a ha t hclaim
    have hfirst : a.context.depth ∈ [1] := hdepths a ha ▸ State.mem_depths.mpr ⟨a, ha, rfl, rfl⟩
    rw [List.mem_singleton.mp hfirst]
    exact (stands_seed hclaim).2.held
  · intro t loop hclaim
    obtain ⟨c, hc, -⟩ := (stands_seed hclaim).2.context?
    exact ⟨[], hdepths _ (State.mem_log_of_context? hc), List.nil_sublist _⟩

variable {p q : State × Bool}

/-- What an element passes to one target keeps the pace: a loop takes what it claims one level below
itself, and from any other element there is nothing new to take. -/
theorem keepsPace_take (h : Paced g opts p.1) (hc : p.1.context? e.name = some c)
    (hq : ReflTransGen (Passes g opts) p.1 q.1) (hcq : q.1.context? e.name = some c) {u : String}
    (he : e ∈ g.elements) (hu : u ∈ followed g opts e) (hcand : candidate? g e c u = some cand)
    (haccepts : accepts g q.1 u cand = true) (hclaim : claimant? g opts t = some loop)
    (hpace : q.1.KeepsPace t loop) : (q.1.assign u cand).KeepsPace t loop := by
  by_cases htu : t = u
  · subst htu
    have hrun := h.run.trans (continues_of_passes hq)
    have hnext := hrun.tail (.inl (.take he hcq hu hcand haccepts))
    have hloop := ((stands_of_continues hnext hclaim).only ⟨t, cand⟩ List.mem_cons_self rfl).1
    have hnew := (accepts_iff.mp haccepts).2.2.2
    obtain ⟨-, hself, ⟨-, rfl⟩ | ⟨-, rfl⟩⟩ := candidate?_eq_some.mp hcand
    · obtain rfl : e.name = loop := hloop
      refine hpace.follow hself hcq rfl fun hmem ↦ hnew ?_
      obtain ⟨a, ha, hn, hdepth⟩ := State.mem_depths.mp hmem
      have hsame := ((stands_of_continues hrun hclaim).only a ha hn).1
      exact State.hasHeld_iff.mpr ⟨a, ha, hn, hsame, hdepth⟩
    · obtain rfl : c.loop = loop := hloop
      exact absurd (State.hasHeld_of_subset (log_subset_of_continues (continues_of_passes hq))
        (h.shared _ (State.mem_log_of_context? hc) t hclaim)) hnew
  · exact hpace.assign_of_ne htu

theorem keepsPace_turn (h : Paced g opts p.1) (he : e ∈ g.elements)
    (hc : p.1.context? e.name = some c) (hclaim : claimant? g opts t = some loop) :
    ((followed g opts e).foldl (handOver g e c) p).1.KeepsPace t loop := by
  have hturn := List.foldlRecOn (motive := fun q : State × Bool ↦
      ReflTransGen (Passes g opts) p.1 q.1 ∧ q.1.context? e.name = some c ∧ q.1.KeepsPace t loop)
    (followed g opts e) (handOver g e c) ⟨.refl, hc, h.pace t loop hclaim⟩ ?_
  · exact hturn.2.2
  rintro q ⟨hq, hcq, hpace⟩ u hu
  obtain hsame | ⟨cand, hcand, haccepts, hnext⟩ := handOver_cases g e c q u
  · rw [hsame]
    exact ⟨hq, hcq, hpace⟩
  · have hown := (handOver_context? g e c q u).trans hcq
    rw [hnext] at hown ⊢
    exact ⟨hq.tail (.take he hcq hu hcand haccepts), hown,
      h.keepsPace_take hc hq hcq he hu hcand haccepts hclaim hpace⟩

theorem turn (hg : g.Distinct) (hacyclic : ∀ a, ¬TransGen (Points (claimant? g opts)) a a)
    (h : Paced g opts p.1) (he : e ∈ g.elements) : Paced g opts (passOn g opts p e).1 := by
  cases hc : p.1.context? e.name with
  | none => rwa [passOn_of_none hc]
  | some c =>
    rw [passOn_of_some hc]
    have hturn : ReflTransGen (Continues g opts) p.1
        ((followed g opts e).foldl (handOver g e c) p).1 :=
      continues_of_passes (handOver_run he hc fun _ hu ↦ hu)
    have hlog := log_subset_of_continues hturn
    refine ⟨h.run.trans hturn, ?_, fun t loop ↦ h.keepsPace_turn he hc⟩
    intro a ha t hclaim
    obtain hold | ⟨hkey, hdepth⟩ := log_foldl_handOver _ p a ha
    · exact State.hasHeld_of_subset hlog (h.shared a hold t hclaim)
    · by_cases hk : e.kind = .loop
      · rw [passed, if_pos hk, Prod.mk.injEq] at hkey
        rw [hkey.1] at hclaim
        rw [hkey.2] at hdepth
        rw [hkey.1, hkey.2]
        exact hasHeld_after_turn hg hacyclic h.run he hk hc hclaim hdepth
      · rw [passed, if_neg hk, Prod.mk.injEq] at hkey
        rw [hkey.1] at hclaim
        rw [hkey.1, hkey.2]
        exact State.hasHeld_of_subset hlog (h.shared _ (State.mem_log_of_context? hc) t hclaim)

theorem place (h : Paced g opts s) (hplace : Places g s s') : Paced g opts s' := by
  have hrun := h.run.tail (.inr hplace)
  obtain ⟨he, hk, hnone, -⟩ := hplace
  refine ⟨hrun, ?_, ?_⟩
  · intro a ha t hclaim
    obtain rfl | ha := List.mem_cons.mp ha
    · exact State.hasHeld_assign _ (stands_of_continues h.run hclaim).held
    · exact State.hasHeld_assign _ (h.shared a ha t hclaim)
  · intro t loop hclaim
    obtain ⟨c, hc, -⟩ := (stands_of_continues h.run hclaim).context?
    apply (h.pace t loop hclaim).assign_of_ne
    rintro rfl
    rw [hnone] at hc
    cases hc

end Paced

theorem paced_propagate (hg : g.Distinct)
    (hacyclic : ∀ a, ¬TransGen (Points (claimant? g opts)) a a) :
    Paced g opts (propagate g opts) :=
  propagate_induction (.start g opts) (fun s h ↦ ⟨h.run.tail (.inl (.round s)), h.shared, h.pace⟩)
    (fun _ _ he h ↦ h.turn hg hacyclic he) fun _ _ hplace h ↦ h.place hplace

section Final

/-- Scans have come to an end in a state that differs from the last one by references only. -/
theorem exists_settled (hg : g.Distinct) (hl : g.loops ≠ []) :
    ∃ s, ReflTransGen (Continues g opts) (seed g opts {}) s ∧ Settled g opts s ∧
      ReflTransGen (Places g) s (propagate g opts) := by
  have hsettled := closed_settle_seed opts hg
  cases ho : opts.alternate with
  | true =>
    obtain ⟨hclosed, -⟩ := closed_alternate hg g.elements.length hsettled
    rw [← propagate_of_alternate hl ho] at hclosed
    exact ⟨_, propagate_continues g opts, hclosed.settled, .refl⟩
  | false =>
    refine ⟨_, settle_continues g opts (bound g) _, hsettled.settled, ?_⟩
    rw [propagate_of_not_alternate hl ho]
    exact references_run g _

theorem context?_of_places (hg : g.Distinct) (h : ReflTransGen (Places g) s s')
    (he : e ∈ g.elements) (hk : e.kind = .loop) (hc : s'.context? e.name = some c) :
    s.context? e.name = some c := by
  obtain hc | ⟨-, x, hx, hn, -⟩ := context?_cases_of_places h hc
  · exact hc
  · obtain rfl := hg.eq_of_name hx.1 he hn
    exact absurd hk (takesValues_ne_loop hx.2.1)

/-- In the end, what a loop claims has held the level below the loop's, if there are so many. -/
theorem hasHeld_level_below (hg : g.Distinct)
    (hacyclic : ∀ a, ¬TransGen (Points (claimant? g opts)) a a) (he : e ∈ g.loops)
    (hclaim : claimant? g opts t = some e.name)
    (hc : (propagate g opts).context? e.name = some outer) (hdepth : outer.depth < g.loops.length) :
    (propagate g opts).hasHeld t e.name (outer.depth + 1) = true := by
  obtain ⟨hee, hk⟩ := Graph.mem_loops.mp he
  obtain ⟨s, hrun, hsettled, hplaces⟩ : ∃ s, ReflTransGen (Continues g opts) (seed g opts {}) s ∧
      Settled g opts s ∧ ReflTransGen (Places g) s (propagate g opts) :=
    exists_settled hg (List.ne_nil_of_mem he)
  have hcs := context?_of_places hg hplaces hee hk hc
  have hrefused := hsettled e hee outer hcs t (mem_followed_of_claimant hg hee hclaim).1 _
    (candidate?_of_claimant hg hacyclic hrun hee hk hcs hclaim)
  have hheld : s.hasHeld t e.name (outer.depth + 1) = true := by
    apply (accepts_or_hasHeld hg hacyclic hrun hclaim rfl _).resolve_left hrefused
    exact Nat.succ_le_of_lt hdepth
  have hlater : ReflTransGen (Continues g opts) s (propagate g opts) := continues_of_places hplaces
  exact State.hasHeld_of_subset (log_subset_of_continues hlater) hheld

/-- No loop and depth is taken twice, so that an older context of the present depth is that of
another loop. -/
theorem depth_not_mem_older (hrun : ReflTransGen (Moves g opts) {} s)
    (honce : ∀ a ∈ s.log, a.name = t → a.context.depth = c.depth → a.context.loop = c.loop)
    {older : List Assignment} (hlog : s.log.filter (·.name == t) = ⟨t, c⟩ :: older) :
    c.depth ∉ older.map (·.context.depth) := by
  have hkeys : ((s.log.filter (·.name == t)).map (·.key)).Nodup :=
    (List.filter_sublist.map _).nodup (keys_nodup hrun)
  rw [hlog, List.map_cons, List.nodup_cons] at hkeys
  intro hmem
  obtain ⟨a, ha, hdepth⟩ := List.mem_map.mp hmem
  obtain ⟨halog, hname⟩ := List.mem_filter.mp (hlog ▸ List.mem_cons_of_mem _ ha)
  have hn : a.name = t := beq_iff_eq.mp hname
  refine hkeys.1 (List.mem_map.mpr ⟨a, ha, ?_⟩)
  simp only [Assignment.key, hn, hdepth, honce a halog hn hdepth]

/-- What a loop claims lies one level below it, if the loop has held its depth under one owner only
and there is a level below. -/
theorem depth_of_claimed (hg : g.Distinct)
    (hacyclic : ∀ a, ¬TransGen (Points (claimant? g opts)) a a)
    (hclaim : claimant? g opts t = some loop)
    (hl : (propagate g opts).context? loop = some outer) (hdepth : outer.depth < g.loops.length)
    (honce : ∀ a ∈ (propagate g opts).log, a.name = loop → a.context.depth = outer.depth →
      a.context.loop = outer.loop)
    (hc : (propagate g opts).context? t = some c) : c.depth = outer.depth + 1 := by
  have hrun := propagate_run g opts
  obtain ⟨_, l, _, hsplit, rfl, -⟩ := claimant?_eq_some_iff.mp hclaim
  have hloop : l ∈ g.loops := hsplit ▸ List.mem_append_right _ List.mem_cons_self
  obtain ⟨a, ha, hn, -, hheld⟩ :=
    State.hasHeld_iff.mp (hasHeld_level_below hg hacyclic hloop hclaim hl hdepth)
  obtain ⟨older, hlog⟩ := State.exists_older hl
  have hdepths : (propagate g opts).depths l.name =
      outer.depth :: older.map (·.context.depth) := by
    rw [State.depths, hlog, List.map_cons]
  obtain ⟨_, -, -, _, _, hw⟩ := witnessed_run hg hrun hl
  exact ((paced_propagate hg hacyclic).pace t l.name hclaim).depth_eq hc hdepths
    (depth_not_mem_older hrun honce hlog) hw.depth_pos (State.mem_depths.mpr ⟨a, ha, hn, hheld⟩)

end Final

/-- Depths agree with owners, unless they are outdated. Let no loop own itself. An element in a
loop that has no context is at the first level. If the loop has a context, then the element is at
the first level or one below a level that the loop has held; and it is one below the level that the
loop has now, but for three cases: it is not the loop itself that has claimed the element, the loop
is as deep as there are loops, or the loop has held its depth under another owner before. -/
theorem depth_follows_owner_unless_outdated (md : Metadata) (opts : Options)
    (hacyclic : ¬Cyclic (ownersOf (Graph.build md) (propagate (Graph.build md) opts).context?))
    {name : String} {c : Context}
    (hc : (propagate (Graph.build md) opts).context? name = some c) :
    let g := Graph.build md
    let s := propagate g opts
    (s.context? c.loop = none → c.depth = 1) ∧
    ∀ outer, s.context? c.loop = some outer →
      (c.depth = 1 ∨ ∃ a ∈ s.log, a.name = c.loop ∧ c.depth = a.context.depth + 1) ∧
      (c.depth ≠ outer.depth + 1 → claimant? g opts name ≠ some c.loop ∨
        outer.depth = g.loops.length ∨
        ∃ a ∈ s.log, a.name = c.loop ∧ a.context.depth = outer.depth ∧
          a.context.loop ≠ outer.loop) := by
  intro g s
  have hg : g.Distinct := Graph.distinct_build md
  have hrun : ReflTransGen (Moves g opts) {} s := propagate_run g opts
  have hclaims : ∀ a, ¬TransGen (Points (claimant? g opts)) a a := fun a hcircle ↦
    hacyclic ⟨a, (circle_ownersOf_iff hg hrun).mpr ((circle_propagate_iff hg).mpr hcircle)⟩
  have hstem := stems_run hrun _ (State.mem_log_of_context? hc)
  refine ⟨?_, ?_⟩
  · intro hnone
    obtain hfirst | ⟨b, hb, hname, -⟩ := hstem
    · exact hfirst
    · exact absurd hname (State.context?_eq_none.mp hnone b hb)
  · intro outer houter
    refine ⟨hstem, ?_⟩
    intro hne
    by_contra hall
    obtain ⟨hclaim, hdepth, honce⟩ : claimant? g opts name = some c.loop ∧
        outer.depth ≠ g.loops.length ∧ ∀ a ∈ s.log, a.name = c.loop →
          a.context.depth = outer.depth → a.context.loop = outer.loop := by
      simpa [not_or] using hall
    obtain ⟨_, -, -, _, _, hw⟩ := witnessed_run hg hrun houter
    have hlt : outer.depth < g.loops.length := Nat.lt_of_le_of_ne hw.depth_le hdepth
    exact hne (depth_of_claimed hg hclaims hclaim houter hlt honce hc)

/-- The lines of every order are read, updated and logged, and a notice that follows them is logged
by the same step. -/
def orderLinesFlow : Metadata where
  name := "OrderLines"
  steps
    | .loop => [{ name := "Orders", nextValueConnector := some "Lines" },
        { name := "Lines", nextValueConnector := some "Read"
          noMoreValuesConnector := some "Notify" }]
    | .recordLookup => [{ name := "Read", connector := some "Update" }]
    | .recordUpdate => [{ name := "Update", connector := some "Log" }]
    | .recordCreate => [{ name := "Log" }]
    | .actionCall => [{ name := "Notify", connector := some "Log" }]
    | _ => []

/-- The loop of lines lies in that of orders, at the first level. The step that logs is in the loop
of lines and should be at the second level, as are the steps before it; it has been there by way of
the notice, and is left at the first level by way of the update, which was behind. -/
theorem log_step_outdated :
    let g := Graph.build orderLinesFlow
    let s := propagate g {}
    ¬Cyclic (ownersOf g s.context?) ∧
    s.context? "Lines" = some ⟨true, "Orders", 1, ["Lines"], [.loop], .connector⟩ ∧
    s.context? "Log" = some ⟨true, "Lines", 1, ["Read", "Update", "Log"],
      [.recordLookup, .recordUpdate, .recordCreate], .connector⟩ ∧
    s.hasHeld "Log" "Lines" 2 = true ∧ claimant? g {} "Log" ≠ some "Lines" := by
  intro g s
  have howners : ownersOf g s.context? = [("Lines", "Orders")] := by decide
  have hacyclic : ¬Cyclic (ownersOf g s.context?) := by
    rw [howners]
    rintro ⟨loop, hcircle⟩
    obtain ⟨_, hfirst, -⟩ := TransGen.head'_iff.mp hcircle
    obtain ⟨_, -, hlast⟩ := TransGen.tail'_iff.mp hcircle
    simp only [Owned, List.mem_singleton, Prod.mk.injEq] at hfirst hlast
    exact absurd (hfirst.1.symm.trans hlast.2) (by decide)
  have hlines : s.context? "Lines" = some ⟨true, "Orders", 1, ["Lines"], [.loop], .connector⟩ := by
    decide
  have hlog : s.context? "Log" = some ⟨true, "Lines", 1, ["Read", "Update", "Log"],
      [.recordLookup, .recordUpdate, .recordCreate], .connector⟩ := by decide
  refine ⟨hacyclic, hlines, hlog, by decide, ?_⟩
  obtain ⟨-, hout⟩ := depth_follows_owner_unless_outdated orderLinesFlow {} hacyclic hlog
  obtain hclaim | hdeep | hother := (hout _ hlines).2 (by decide)
  · exact hclaim
  · exact absurd hdeep (by decide)
  · exact absurd hother (by decide)

end FlowAudit.Loops
