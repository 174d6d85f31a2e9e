import FlowAudit.Proofs.Loops.Moves

namespace FlowAudit.Loops

open Relation

variable {g : Graph} {opts : Options} {s s' : State} {t loop : String} {c : Context}

/-- The first loop of the graph, other than the element itself, that leads to the element. -/
def claimant? (g : Graph) (opts : Options) (t : String) : Option String :=
  (g.loops.find? fun l ↦ (followed g opts l).contains t && t != l.name).map (·.name)

namespace State

theorem owner?_assign (s : State) (name n : String) :
    (s.assign name c).owner? n = if n = name then some c.loop else s.owner? n := by
  unfold owner?
  rw [context?_assign]
  split <;> rfl

theorem owner?_eq_some : s.owner? t = some loop ↔ ∃ c, s.context? t = some c ∧ c.loop = loop :=
  Option.map_eq_some_iff

theorem owner?_eq_none : s.owner? t = none ↔ s.context? t = none := Option.map_eq_none_iff

end State

theorem owner?_claim (s : State) (u : String) :
    (claim g loop s u).owner? t =
      (s.owner? t).or (if t = u ∧ t ≠ loop then some loop else none) := by
  unfold claim
  by_cases hskip : (u == loop || (s.context? u).isSome) = true
  · rw [if_pos hskip]
    cases ht : s.owner? t with
    | some l => rfl
    | none =>
      have hnot : ¬(t = u ∧ t ≠ loop) := by
        rintro ⟨rfl, hne⟩
        simp [hne, State.owner?_eq_none.mp ht] at hskip
      rw [if_neg hnot, Option.none_or]
  · rw [if_neg hskip]
    simp only [Bool.or_eq_true, beq_iff_eq, not_or, Option.not_isSome_iff_eq_none] at hskip
    refine (State.owner?_assign s u t).trans ?_
    by_cases htu : t = u
    · subst htu
      simp [State.owner?_eq_none.mpr hskip.2, hskip.1, entering]
    · simp [htu]

theorem owner?_foldl_claim (ts : List String) (s : State) :
    (ts.foldl (claim g loop) s).owner? t =
      (s.owner? t).or (if t ∈ ts ∧ t ≠ loop then some loop else none) := by
  induction ts generalizing s with
  | nil => simp
  | cons u ts ih =>
    rw [List.foldl_cons, ih, owner?_claim, Option.or_assoc]
    congr 1
    by_cases hne : t = loop
    · simp [hne]
    · by_cases htu : t = u
      · simp [← htu, hne]
      · simp [htu, hne]

/-- After the claims of some loops, the first of them that leads to an element owns it, unless it had
an owner before. -/
theorem owner?_foldl_claims (ls : List Element) (s : State) :
    (ls.foldl (fun s l ↦ (followed g opts l).foldl (claim g l.name) s) s).owner? t =
      (s.owner? t).or
        ((ls.find? fun l ↦ (followed g opts l).contains t && t != l.name).map (·.name)) := by
  induction ls generalizing s with
  | nil => simp
  | cons l ls ih =>
    rw [List.foldl_cons, ih, owner?_foldl_claim, Option.or_assoc, List.find?_cons]
    by_cases h : t ∈ followed g opts l ∧ t ≠ l.name
    · have hb : ((followed g opts l).contains t && t != l.name) = true := by simpa using h
      rw [if_pos h, hb, Option.some_or, Option.map_some]
    · have hb : ((followed g opts l).contains t && t != l.name) = false := by
        simpa [not_and] using h
      rw [if_neg h, hb, Option.none_or]

theorem owner?_seed (g : Graph) (opts : Options) (t : String) :
    (seed g opts {}).owner? t = claimant? g opts t := by
  rw [seed, owner?_foldl_claims]
  rfl

/-- The loop's claim to the element stands: only contexts of that loop along connectors have been
assigned to it, among them one at the first level. -/
structure Stands (s : State) (t loop : String) : Prop where
  held : s.hasHeld t loop 1 = true
  only : ∀ a ∈ s.log, a.name = t → a.context.loop = loop ∧ a.context.via = .connector

theorem Stands.context? (h : Stands s t loop) :
    ∃ c, s.context? t = some c ∧ c.loop = loop ∧ c.via = .connector := by
  obtain ⟨a, ha, hn, -⟩ := State.hasHeld_iff.mp h.held
  obtain ⟨c, hc⟩ := State.exists_context?.mpr ⟨a, ha, hn⟩
  exact ⟨c, hc, h.only _ (State.mem_log_of_context? hc) rfl⟩

theorem Stands.cons (h : Stands s t loop) {a : Assignment} (hlog : s'.log = a :: s.log)
    (ha : a.name = t → a.context.loop = loop ∧ a.context.via = .connector) : Stands s' t loop := by
  obtain ⟨b, hb, hheld⟩ := State.hasHeld_iff.mp h.held
  refine ⟨State.hasHeld_iff.mpr ⟨b, hlog ▸ List.mem_cons_of_mem _ hb, hheld⟩, fun b hb hn ↦ ?_⟩
  rw [hlog] at hb
  obtain rfl | hb := List.mem_cons.mp hb
  · exact ha hn
  · exact h.only b hb hn

theorem stands_claims (h : ReflTransGen (Claims g opts) {} s) :
    ∀ a ∈ s.log, a.name ∈ s.seeded ∧ Stands s a.name a.context.loop := by
  refine preserved_of_reflTransGen
    (P := fun s ↦ ∀ a ∈ s.log, a.name ∈ s.seeded ∧ Stands s a.name a.context.loop) ?_ h (by simp)
  rintro s - ⟨-, -, -, hnone⟩ hs a ha
  have hnew := State.context?_eq_none.mp hnone
  obtain rfl | ha := List.mem_cons.mp ha
  · refine ⟨List.mem_append_right _ List.mem_cons_self, State.hasHeld_assign_self s, ?_⟩
    intro b hb hn
    obtain rfl | hb := List.mem_cons.mp hb
    · exact ⟨rfl, rfl⟩
    · exact absurd hn (hnew b hb)
  · obtain ⟨hseeded, hstands⟩ := hs a ha
    exact ⟨List.mem_append_left _ hseeded, hstands.cons rfl fun hn ↦ absurd hn.symm (hnew a ha)⟩

theorem stands_seed (h : claimant? g opts t = some loop) :
    t ∈ (seed g opts {}).seeded ∧ Stands (seed g opts {}) t loop := by
  rw [← owner?_seed, State.owner?_eq_some] at h
  obtain ⟨c, hc, rfl⟩ := h
  exact stands_claims (seed_run g opts {}) _ (State.mem_log_of_context? hc)

/-- Contexts that come from a reference are those of the first level: a loop gives contexts along
connectors only, and nothing else leads to another level. -/
def State.ReferencesFlat (s : State) : Prop :=
  ∀ a ∈ s.log, a.context.via = .reference → a.context.depth = 1

theorem State.ReferencesFlat.assign (hs : s.ReferencesFlat) {name : String}
    (hc : c.via = .reference → c.depth = 1) : (s.assign name c).ReferencesFlat := by
  intro a ha
  obtain rfl | ha := List.mem_cons.mp ha
  · exact hc
  · exact hs a ha

theorem State.ReferencesFlat.candidate {e : Element} {cand : Context} (hs : s.ReferencesFlat)
    (hc : s.context? e.name = some c) (hcand : candidate? g e c t = some cand)
    (hv : cand.via = .reference) : cand.depth = 1 := by
  obtain ⟨-, -, ⟨-, rfl⟩ | ⟨-, rfl⟩⟩ := candidate?_eq_some.mp hcand
  · cases hv
  · exact hs _ (State.mem_log_of_context? hc) hv

theorem Moves.referencesFlat (h : Moves g opts s s') (hs : s.ReferencesFlat) :
    s'.ReferencesFlat := by
  obtain ⟨-, -, -, -⟩ | h | ⟨-, -, -, -⟩ := h
  · exact hs.assign (fun hv ↦ by cases hv)
  · cases h with
    | round => exact hs
    | take _ hc _ hcand _ => exact hs.assign (hs.candidate hc hcand)
  · exact hs.assign (fun _ ↦ rfl)

theorem referencesFlat_run (h : ReflTransGen (Moves g opts) {} s) : s.ReferencesFlat :=
  preserved_of_reflTransGen (P := State.ReferencesFlat) (fun _ _ ↦ Moves.referencesFlat) h
    (by simp [State.ReferencesFlat])

theorem Continues.stands (hflat : s.ReferencesFlat) (ht : t ∈ s.seeded) (hs : Stands s t loop)
    (h : Continues g opts s s') : t ∈ s'.seeded ∧ Stands s' t loop := by
  obtain h | ⟨-, -, hnone, -⟩ := h
  · cases h with
    | round => exact ⟨ht, hs.held, hs.only⟩
    | @take e c cand u _ hc _ hcand ha =>
      refine ⟨ht, hs.cons rfl ?_⟩
      rintro rfl
      obtain ⟨-, -, hsame, hnew⟩ := accepts_iff.mp ha
      obtain ⟨old, hold, hloop, -⟩ := hs.context?
      obtain rfl := (hsame old hold ht).symm.trans hloop
      refine ⟨rfl, ?_⟩
      cases hv : cand.via with
      | connector => rfl
      | reference =>
        -- A context by reference would be of the first level, which the claim has taken.
        have hdepth : cand.depth = 1 := hflat.candidate hc hcand hv
        exact absurd hs.held (hdepth ▸ hnew)
  · refine ⟨ht, hs.cons rfl ?_⟩
    rintro rfl
    exact absurd hnone (context?_ne_none_of_hasHeld hs.held)

/-- A claim stands for ever. -/
theorem stands_of_continues (hrun : ReflTransGen (Continues g opts) (seed g opts {}) s)
    (h : claimant? g opts t = some loop) : Stands s t loop := by
  have hinv := preserved_of_reflTransGen
    (P := fun s ↦ ReflTransGen (Moves g opts) {} s ∧ t ∈ s.seeded ∧ Stands s t loop)
    (fun s s' hmove hs ↦ ⟨hs.1.tail (.inr hmove),
      hmove.stands (referencesFlat_run hs.1) hs.2.1 hs.2.2⟩)
    hrun ⟨moves_of_claims (seed_run g opts {}), stands_seed h⟩
  exact hinv.2.2

section Listed

def Wants (g : Graph) (opts : Options) (l : Element) (t : String) : Prop :=
  t ∈ followed g opts l ∧ t ≠ l.name

theorem claimant?_eq_some_iff : claimant? g opts t = some loop ↔
    ∃ before l after, g.loops = before ++ l :: after ∧ l.name = loop ∧ Wants g opts l t ∧
      ∀ l' ∈ before, ¬Wants g opts l' t := by
  have hwants : ∀ l, ((followed g opts l).contains t && t != l.name) = true ↔ Wants g opts l t := by
    simp [Wants]
  unfold claimant?
  simp only [Option.map_eq_some_iff, List.find?_eq_some_iff_append, Bool.not_eq_true',
    ← Bool.not_eq_true, hwants]
  constructor
  · rintro ⟨l, ⟨hl, before, after, hsplit, hbefore⟩, hname⟩
    exact ⟨before, l, after, hsplit, hname, hl, hbefore⟩
  · rintro ⟨before, l, after, hsplit, hname, hl, hbefore⟩
    exact ⟨l, ⟨hl, before, after, hsplit, hbefore⟩, hname⟩

theorem claimant?_ne_none_iff : claimant? g opts t ≠ none ↔ ∃ l ∈ g.loops, Wants g opts l t := by
  simp [claimant?, Wants]

/-- While loops make their claims, an element is listed when it gets its context, and never
again. -/
theorem seeded_of_claims (h : ReflTransGen (Claims g opts) {} s) :
    s.seeded.Nodup ∧ ∀ t, t ∈ s.seeded ↔ s.context? t ≠ none := by
  refine preserved_of_reflTransGen
    (P := fun s ↦ s.seeded.Nodup ∧ ∀ t, t ∈ s.seeded ↔ s.context? t ≠ none) ?_ h ?_
  · rintro s - ⟨-, -, -, hnone⟩ ⟨hnodup, hlisted⟩
    refine ⟨hnodup.append (List.nodup_singleton _) ?_, fun u ↦ ?_⟩
    · simpa [hlisted] using hnone
    · change _ ↔ (s.assign _ _).context? u ≠ none
      rw [List.mem_append, List.mem_singleton, hlisted, State.context?_assign]
      split
      · next hu => simp [hu]
      · next hu => simp [hu]
  · exact ⟨List.nodup_nil, fun t ↦ by simp [State.context?]⟩

theorem Continues.seeded_eq (h : Continues g opts s s') : s'.seeded = s.seeded := by
  obtain h | ⟨-, -, -, -⟩ := h
  · cases h with
    | round => rfl
    | take => rfl
  · rfl

theorem seeded_propagate (g : Graph) (opts : Options) :
    (propagate g opts).seeded = (seed g opts {}).seeded :=
  preserved_of_reflTransGen (P := fun s ↦ s.seeded = (seed g opts {}).seeded)
    (fun _ _ h hs ↦ h.seeded_eq.trans hs) (propagate_continues g opts) rfl

theorem mem_seeded_propagate_iff :
    t ∈ (propagate g opts).seeded ↔ ∃ l ∈ g.loops, Wants g opts l t := by
  rw [seeded_propagate, (seeded_of_claims (seed_run g opts {})).2, ← claimant?_ne_none_iff,
    ← owner?_seed, ne_eq, ne_eq, State.owner?_eq_none]

end Listed

/-- The first claim is final. An element that loops other than itself lead to ends up in the first
of them, found along connectors; and these elements are the ones that are listed as claimed, each
of them once. -/
theorem first_claim_is_final (md : Metadata) (opts : Options) :
    let g := Graph.build md
    (∀ before l after, g.loops = before ++ l :: after → ∀ t ∈ g.elements, Wants g opts l t.name →
      (∀ l' ∈ before, ¬Wants g opts l' t.name) →
      ∃ c, (propagate g opts).context? t.name = some c ∧ c.loop = l.name ∧ c.via = .connector) ∧
    (propagate g opts).seeded.Nodup ∧
    ∀ name, name ∈ (propagate g opts).seeded ↔
      ∃ t ∈ g.elements, t.name = name ∧ ∃ l ∈ g.loops, Wants g opts l t.name := by
  intro g
  refine ⟨?_, ?_, ?_⟩
  · intro before l after hsplit t _ hl hbefore
    have hclaim := claimant?_eq_some_iff.mpr ⟨before, l, after, hsplit, rfl, hl, hbefore⟩
    exact (stands_of_continues (propagate_continues g opts) hclaim).context?
  · rw [seeded_propagate]
    exact (seeded_of_claims (seed_run g opts {})).1
  · intro name
    rw [mem_seeded_propagate_iff]
    constructor
    · rintro ⟨l, hl, hwants⟩
      obtain ⟨t, ht, rfl⟩ := mem_elements_of_mem_followed hwants.1
      exact ⟨t, ht, rfl, l, hl, hwants⟩
    · rintro ⟨t, -, rfl, hwants⟩
      exact hwants

/-- Orders and items are saved by one step, which the loop of items has for its way out and reaches
once more behind a check. A third loop, which comes before both, does nothing. -/
def sharedStepFlow : Metadata where
  name := "Shared"
  steps
    | .loop => [{ name := "Idle" }, { name := "Orders", nextValueConnector := some "Save" },
        { name := "Items", nextValueConnector := some "Check"
          noMoreValuesConnector := some "Save" }]
    | .assignment => [{ name := "Check", connector := some "Save" }]
    | .recordUpdate => [{ name := "Save", connector := some "Items" }]
    | _ => []

/-- Of the loops of orders and items, the first one keeps the step that both lead to. -/
theorem shared_step_stays_claimed :
    (∃ c, (propagate (Graph.build sharedStepFlow) { alternate := true }).context? "Save" = some c ∧
      c.loop = "Orders" ∧ c.via = .connector) ∧
    (propagate (Graph.build sharedStepFlow) { alternate := true }).seeded = ["Save", "Check"] := by
  obtain ⟨hfinal, -, -⟩ := first_claim_is_final sharedStepFlow { alternate := true }
  refine ⟨?_, by decide +kernel⟩
  refine hfinal [⟨"Idle", .loop, .loop "" "", []⟩]
    ⟨"Orders", .loop, .loop "" "", [{ target := "Save", kind := .nextValue }]⟩
    [⟨"Items", .loop, .loop "" "", [{ target := "Check", kind := .nextValue },
      { target := "Save", kind := .noMoreValues }]⟩] (by decide)
    ⟨"Save", .recordUpdate, .recordOperation "" [] "" "" [] [],
      [{ target := "Items", kind := .connector }]⟩ (by decide) ?_ ?_
  · exact ⟨by decide, by decide⟩
  · rintro l hl ⟨hmem, -⟩
    obtain rfl := List.mem_singleton.mp hl
    exact absurd hmem (by decide)

end FlowAudit.Loops
