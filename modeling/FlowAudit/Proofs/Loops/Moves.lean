import FlowAudit.Proofs.Loops.Edges
import FlowAudit.Proofs.Runs

namespace FlowAudit.Loops

open Relation

variable {g : Graph} {opts : Options} {s s' : State} {name : String} {c : Context}

namespace State

@[simp] theorem assign_log (s : State) : (s.assign name c).log = ⟨name, c⟩ :: s.log := rfl

theorem context?_assign (s : State) (n : String) :
    (s.assign name c).context? n = if n = name then some c else s.context? n := by
  by_cases h : n = name
  · simp [context?, h]
  · have hb : (name == n) = false := by simpa using Ne.symm h
    simp [context?, h, hb]

@[simp] theorem context?_assign_self (s : State) : (s.assign name c).context? name = some c := by
  rw [context?_assign, if_pos rfl]

theorem context?_assign_of_ne (s : State) {n : String} (h : n ≠ name) :
    (s.assign name c).context? n = s.context? n := by
  rw [context?_assign, if_neg h]

theorem mem_log_of_context? (h : s.context? name = some c) : ⟨name, c⟩ ∈ s.log := by
  obtain ⟨⟨n, c'⟩, hf, rfl⟩ := Option.map_eq_some_iff.mp h
  have hn : n = name := by simpa using List.find?_some hf
  exact hn ▸ List.mem_of_find?_eq_some hf

theorem context?_eq_none : s.context? name = none ↔ ∀ a ∈ s.log, a.name ≠ name := by
  simp [context?]

theorem exists_context? : (∃ c, s.context? name = some c) ↔ ∃ a ∈ s.log, a.name = name := by
  constructor
  · rintro ⟨c, h⟩
    exact ⟨_, mem_log_of_context? h, rfl⟩
  · rintro ⟨a, ha, hn⟩
    by_contra h
    have hnone : s.context? name = none := by
      simpa [Option.eq_none_iff_forall_ne_some] using h
    exact context?_eq_none.mp hnone a ha hn

theorem hasHeld_iff {loop : String} {depth : Nat} : s.hasHeld name loop depth = true ↔
    ∃ a ∈ s.log, a.name = name ∧ a.context.loop = loop ∧ a.context.depth = depth := by
  simp [hasHeld, and_assoc]

theorem hasHeld_assign {loop : String} {depth : Nat} (n : String)
    (h : s.hasHeld n loop depth = true) : (s.assign name c).hasHeld n loop depth = true := by
  obtain ⟨a, ha, hn⟩ := hasHeld_iff.mp h
  exact hasHeld_iff.mpr ⟨a, List.mem_cons_of_mem _ ha, hn⟩

@[simp] theorem hasHeld_assign_self (s : State) :
    (s.assign name c).hasHeld name c.loop c.depth = true :=
  hasHeld_iff.mpr ⟨_, List.mem_cons_self, rfl, rfl, rfl⟩

end State

theorem context?_ne_none_of_hasHeld {loop : String} {depth : Nat}
    (h : s.hasHeld name loop depth = true) : s.context? name ≠ none := by
  obtain ⟨a, ha, hn, -⟩ := State.hasHeld_iff.mp h
  exact fun hnone ↦ State.context?_eq_none.mp hnone a ha hn

theorem accepts_iff {t : String} : accepts g s t c = true ↔
    c.depth ≤ g.loops.length ∧ ¬(g.isLoop t = true ∧ s.encloses t c.loop = true) ∧
      (∀ old, s.context? t = some old → t ∈ s.seeded → old.loop = c.loop) ∧
      ¬s.hasHeld t c.loop c.depth = true := by
  have hheld : s.context? t = none → ¬s.hasHeld t c.loop c.depth = true :=
    fun hnone h ↦ context?_ne_none_of_hasHeld h hnone
  cases ht : s.context? t with
  | none => simp [accepts, ht, hheld ht, imp_iff_not_or]
  | some old =>
    have hold : (∀ c', some old = some c' → t ∈ s.seeded → c'.loop = c.loop) ↔
        (t ∈ s.seeded → old.loop = c.loop) := by simp
    rw [hold]
    simp [accepts, ht, and_assoc, imp_iff_not_or]

theorem accepts_of_none {t : String} (hs : s.context? t = none) (ht : ¬g.isLoop t = true)
    (hd : c.depth ≤ g.loops.length) : accepts g s t c = true := by
  refine accepts_iff.mpr ⟨hd, fun h ↦ ht h.1, fun old hold ↦ ?_, fun h ↦ ?_⟩
  · rw [hs] at hold
    cases hold
  · exact context?_ne_none_of_hasHeld h hs

/-- A loop gives a context of its own, one level deeper; any other element gives the one it has,
with a longer path. -/
theorem candidate?_eq_some {e : Element} {cand : Context} {t : String} :
    candidate? g e c t = some cand ↔ t ≠ c.loop ∧ t ≠ e.name ∧
      (e.kind = .loop ∧ cand = entering g e.name (c.depth + 1) t ∨
        e.kind ≠ .loop ∧ cand = { c with
          isInLoop := true, path := c.path ++ [t]
          pathKinds := c.pathKinds ++ kindsOf g [t] }) := by
  unfold candidate?
  by_cases hne : t = c.loop ∨ t = e.name
  · have hb : (t == c.loop || t == e.name) = true := by simpa using hne
    simp only [hb, if_true, reduceCtorEq, false_iff]
    exact fun h ↦ hne.elim h.1 h.2.1
  · have hb : (t == c.loop || t == e.name) = false := by simpa using hne
    obtain ⟨hloop, hself⟩ := not_or.mp hne
    by_cases hk : e.kind = .loop
    · simp only [hb, hk, hloop, hself, if_true, Bool.false_eq_true, if_false, Option.some.injEq,
        ne_eq, not_false_eq_true, not_true_eq_false, true_and, false_and, or_false,
        eq_comm (b := cand)]
    · simp only [hb, hk, hloop, hself, Bool.false_eq_true, if_false, Option.some.injEq, ne_eq,
        not_false_eq_true, true_and, false_and, false_or, eq_comm (b := cand)]

/-- A loop claims one of its targets that is in no loop yet. -/
inductive Claims (g : Graph) (opts : Options) : State → State → Prop
  | claim {s : State} {l : Element} {t : String} (hl : l ∈ g.loops) (ht : t ∈ followed g opts l)
      (hne : t ≠ l.name) (hs : s.context? t = none) :
      Claims g opts s { s.assign t (entering g l.name 1 t) with seeded := s.seeded ++ [t] }

/-- A scan begins, or an element takes the context that another one passes to it. -/
inductive Passes (g : Graph) (opts : Options) : State → State → Prop
  | round (s : State) : Passes g opts s { s with rounds := s.rounds + 1 }
  | take {s : State} {e : Element} {c cand : Context} {t : String} (he : e ∈ g.elements)
      (hc : s.context? e.name = some c) (ht : t ∈ followed g opts e)
      (hcand : candidate? g e c t = some cand) (ha : accepts g s t cand = true) :
      Passes g opts s (s.assign t cand)

def mentioning (e : Element) (loop : String) : Context :=
  { loop := loop, depth := 1, path := [e.name], pathKinds := [e.kind], via := .reference }

/-- An element that is in no loop yet is placed in one whose variable it mentions. -/
inductive Places (g : Graph) : State → State → Prop
  | place {s : State} {e : Element} {loop : String} (he : e ∈ g.elements)
      (hk : takesValues e.kind = true) (hs : s.context? e.name = none)
      (hl : referencedLoop? g e = some loop) :
      Places g s
        { s.assign e.name (mentioning e loop) with referenced := s.referenced ++ [e.name] }

def Continues (g : Graph) (opts : Options) (s s' : State) : Prop :=
  Passes g opts s s' ∨ Places g s s'

def Moves (g : Graph) (opts : Options) (s s' : State) : Prop :=
  Claims g opts s s' ∨ Continues g opts s s'

theorem moves_of_claims (h : ReflTransGen (Claims g opts) s s') :
    ReflTransGen (Moves g opts) s s' :=
  ReflTransGen.mono (fun _ _ ↦ Or.inl) _ _ h

theorem moves_of_continues (h : ReflTransGen (Continues g opts) s s') :
    ReflTransGen (Moves g opts) s s' :=
  ReflTransGen.mono (fun _ _ ↦ Or.inr) _ _ h

theorem continues_of_passes (h : ReflTransGen (Passes g opts) s s') :
    ReflTransGen (Continues g opts) s s' :=
  ReflTransGen.mono (fun _ _ ↦ Or.inl) _ _ h

theorem continues_of_places (h : ReflTransGen (Places g) s s') :
    ReflTransGen (Continues g opts) s s' :=
  ReflTransGen.mono (fun _ _ ↦ Or.inr) _ _ h

theorem claim_run {l : Element} (hl : l ∈ g.loops) {t : String} (ht : t ∈ followed g opts l)
    (s : State) : ReflTransGen (Claims g opts) s (claim g l.name s t) := by
  unfold claim
  split
  · exact .refl
  · next h =>
    simp only [Bool.or_eq_true, beq_iff_eq, not_or, Option.not_isSome_iff_eq_none] at h
    exact .single (.claim hl ht h.1 h.2)

theorem seed_run (g : Graph) (opts : Options) (s : State) :
    ReflTransGen (Claims g opts) s (seed g opts s) :=
  reflTransGen_foldl id (fun s _ hl ↦ reflTransGen_foldl id (fun s _ ht ↦ claim_run hl ht s) s) s

def handOver (g : Graph) (e : Element) (c : Context) (p : State × Bool) (t : String) :
    State × Bool :=
  match candidate? g e c t with
  | none => p
  | some cand => if accepts g p.1 t cand then (p.1.assign t cand, true) else p

theorem passOn_of_none {e : Element} {p : State × Bool} (h : p.1.context? e.name = none) :
    passOn g opts p e = p := by
  simp only [passOn, h]

theorem passOn_of_some {e : Element} {p : State × Bool} (h : p.1.context? e.name = some c) :
    passOn g opts p e = (followed g opts e).foldl (handOver g e c) p := by
  simp only [passOn, h]
  congr 1
  funext ⟨s, changed⟩ t
  cases hcand : candidate? g e c t with
  | none => simp only [handOver, hcand]
  | some cand => by_cases ha : accepts g s t cand = true <;> simp [handOver, hcand, offer, ha]

theorem handOver_cases (g : Graph) (e : Element) (c : Context) (p : State × Bool) (t : String) :
    handOver g e c p t = p ∨ ∃ cand, candidate? g e c t = some cand ∧
      accepts g p.1 t cand = true ∧ handOver g e c p t = (p.1.assign t cand, true) := by
  cases hcand : candidate? g e c t with
  | none => exact .inl (by simp only [handOver, hcand])
  | some cand =>
    by_cases ha : accepts g p.1 t cand = true
    · exact .inr ⟨cand, rfl, ha, by simp only [handOver, hcand, ha, if_true]⟩
    · exact .inl (by simp only [handOver, hcand, ha]; rfl)

/-- An element does not pass a context to itself, so that its own stays while it is passed on. -/
theorem handOver_context? (g : Graph) (e : Element) (c : Context) (p : State × Bool) (t : String) :
    (handOver g e c p t).1.context? e.name = p.1.context? e.name := by
  obtain h | ⟨cand, hcand, -, h⟩ := handOver_cases g e c p t
  · rw [h]
  · rw [h, State.context?_assign_of_ne _ (candidate?_eq_some.mp hcand).2.1.symm]

theorem handOver_run {e : Element} (he : e ∈ g.elements) {p : State × Bool}
    (hc : p.1.context? e.name = some c) {ts : List String} (hts : ∀ t ∈ ts, t ∈ followed g opts e) :
    ReflTransGen (Passes g opts) p.1 (ts.foldl (handOver g e c) p).1 := by
  induction ts generalizing p with
  | nil => exact .refl
  | cons t ts ih =>
    have hrest := ih (p := handOver g e c p t) (by rw [handOver_context?, hc])
      (fun t' ht' ↦ hts t' (List.mem_cons_of_mem _ ht'))
    rw [List.foldl_cons]
    obtain h | ⟨cand, hcand, ha, h⟩ := handOver_cases g e c p t
    · rwa [h] at hrest ⊢
    · rw [h] at hrest ⊢
      exact .head (.take he hc (hts t List.mem_cons_self) hcand ha) hrest

theorem passOn_run {e : Element} (he : e ∈ g.elements) (p : State × Bool) :
    ReflTransGen (Passes g opts) p.1 (passOn g opts p e).1 := by
  cases hc : p.1.context? e.name with
  | none => rw [passOn_of_none hc]
  | some c =>
    rw [passOn_of_some hc]
    exact handOver_run he hc (fun _ h ↦ h)

theorem scan_run (g : Graph) (opts : Options) (s : State) :
    ReflTransGen (Passes g opts) s (scan g opts s).1 :=
  .head (.round s) (reflTransGen_foldl Prod.fst (fun p _ he ↦ passOn_run he p)
    ({ s with rounds := s.rounds + 1 }, false))

theorem settle_of_unchanged (h : (scan g opts s).2 = false) (fuel : Nat) :
    settle g opts fuel s = scan g opts s := by
  unfold settle
  split
  · next hs => rw [hs]
  · next hs => simp only [hs, Bool.true_eq_false] at h

theorem settle_zero (g : Graph) (opts : Options) (s : State) :
    settle g opts 0 s = scan g opts s := by
  unfold settle
  split
  · next hs => rw [hs]
  · next hs => rw [hs]

theorem settle_succ_of_changed (h : (scan g opts s).2 = true) (fuel : Nat) :
    settle g opts (fuel + 1) s = ((settle g opts fuel (scan g opts s).1).1, true) := by
  rw [settle]
  split
  · next hs => simp only [hs, Bool.false_eq_true] at h
  · next hs => rw [hs]

theorem settle_run (g : Graph) (opts : Options) (fuel : Nat) (s : State) :
    ReflTransGen (Passes g opts) s (settle g opts fuel s).1 := by
  induction fuel generalizing s with
  | zero =>
    rw [settle_zero]
    exact scan_run g opts s
  | succ fuel ih =>
    cases h : (scan g opts s).2 with
    | false =>
      rw [settle_of_unchanged h]
      exact scan_run g opts s
    | true =>
      rw [settle_succ_of_changed h]
      exact (scan_run g opts s).trans (ih _)

theorem placeByReference_cases (g : Graph) (p : State × Bool) (e : Element) :
    placeByReference g p e = p ∨ ∃ loop, takesValues e.kind = true ∧ p.1.context? e.name = none ∧
      referencedLoop? g e = some loop ∧ placeByReference g p e =
        ({ p.1.assign e.name (mentioning e loop) with referenced := p.1.referenced ++ [e.name] },
          true) := by
  unfold placeByReference
  split
  · exact .inl rfl
  · next h =>
    simp only [Bool.or_eq_true, Bool.not_eq_true', not_or, Bool.not_eq_false,
      Option.not_isSome_iff_eq_none] at h
    cases hl : referencedLoop? g e with
    | none => exact .inl rfl
    | some loop => exact .inr ⟨loop, h.1, h.2, rfl, rfl⟩

theorem placeByReference_run {e : Element} (he : e ∈ g.elements) (p : State × Bool) :
    ReflTransGen (Places g) p.1 (placeByReference g p e).1 := by
  obtain h | ⟨loop, hk, hs, hl, h⟩ := placeByReference_cases g p e
  · rw [h]
  · rw [h]
    exact .single (.place he hk hs hl)

theorem references_run (g : Graph) (s : State) :
    ReflTransGen (Places g) s (references g s).1 :=
  reflTransGen_foldl Prod.fst (fun p _ he ↦ placeByReference_run he p) (s, false)

theorem settle_continues (g : Graph) (opts : Options) (fuel : Nat) (s : State) :
    ReflTransGen (Continues g opts) s (settle g opts fuel s).1 :=
  continues_of_passes (settle_run g opts fuel s)

theorem references_continues (g : Graph) (opts : Options) (s : State) :
    ReflTransGen (Continues g opts) s (references g s).1 :=
  continues_of_places (references_run g s)

/-- A reference pass that changes nothing is the last one; after any other, scans follow, and then
perhaps the next pass. -/
theorem alternate_cases (g : Graph) (opts : Options) (fuel : Nat) (s : State) :
    (references g s).2 = false ∧ alternate g opts fuel s = (references g s).1 ∨
    (references g s).2 = true ∧
      (alternate g opts fuel s = (settle g opts (bound g) (references g s).1).1 ∨
        ∃ n, fuel = n + 1 ∧ alternate g opts fuel s =
          alternate g opts n (settle g opts (bound g) (references g s).1).1) := by
  unfold alternate
  split
  · next hr => exact .inl (by simp only [hr, and_self])
  · next hr =>
    refine .inr ⟨by simp only [hr], ?_⟩
    simp only [hr]
    split
    · next hs => exact .inl (by simp only [hs])
    · next hs =>
      cases fuel with
      | zero => exact .inl (by simp only [hs])
      | succ n => exact .inr ⟨n, rfl, by simp only [hs]; exact alternate.eq_def g opts n _⟩

theorem alternate_run (fuel : Nat) (s : State) :
    ReflTransGen (Continues g opts) s (alternate g opts fuel s) := by
  induction fuel using Nat.strongRecOn generalizing s with
  | ind fuel ih =>
    have hrefs := references_continues g opts s
    have hsettle := settle_continues g opts (bound g) (references g s).1
    obtain ⟨-, h⟩ | ⟨-, h | ⟨n, hn, h⟩⟩ := alternate_cases g opts fuel s
    · rwa [h]
    · rw [h]
      exact hrefs.trans hsettle
    · rw [h]
      exact (hrefs.trans hsettle).trans (ih n (by omega) _)

theorem seed_of_no_loops (h : g.loops = []) (s : State) : seed g opts s = s := by
  simp only [seed, h, List.foldl_nil]

theorem propagate_of_no_loops (h : g.loops = []) : propagate g opts = {} := by
  simp only [propagate, h, List.isEmpty_nil, if_true]

theorem propagate_of_alternate (h : g.loops ≠ []) (ho : opts.alternate = true) :
    propagate g opts = alternate g opts g.elements.length
      (settle g opts (bound g) (seed g opts {})).1 := by
  simp [propagate, h, ho]

theorem propagate_of_not_alternate (h : g.loops ≠ []) (ho : opts.alternate = false) :
    propagate g opts = (references g (settle g opts (bound g) (seed g opts {})).1).1 := by
  simp [propagate, h, ho]

theorem propagate_continues_settle (h : g.loops ≠ []) :
    ReflTransGen (Continues g opts) (settle g opts (bound g) (seed g opts {})).1
      (propagate g opts) := by
  cases ho : opts.alternate with
  | true =>
    rw [propagate_of_alternate h ho]
    exact alternate_run _ _
  | false =>
    rw [propagate_of_not_alternate h ho]
    exact references_continues g opts _

theorem propagate_continues (g : Graph) (opts : Options) :
    ReflTransGen (Continues g opts) (seed g opts {}) (propagate g opts) := by
  by_cases h : g.loops = []
  · rw [seed_of_no_loops h, propagate_of_no_loops h]
  · exact (settle_continues g opts (bound g) (seed g opts {})).trans (propagate_continues_settle h)

/-- Everything that is worked out is a sequence of moves from nothing. -/
theorem propagate_run (g : Graph) (opts : Options) :
    ReflTransGen (Moves g opts) {} (propagate g opts) :=
  (moves_of_claims (seed_run g opts {})).trans (moves_of_continues (propagate_continues g opts))

section Induction

variable {P : State → Prop}

theorem settle_induction (hround : ∀ s, P s → P { s with rounds := s.rounds + 1 })
    (hpass : ∀ p : State × Bool, ∀ e ∈ g.elements, P p.1 → P (passOn g opts p e).1) (fuel : Nat)
    (hs : P s) : P (settle g opts fuel s).1 := by
  have hscan : ∀ s, P s → P (scan g opts s).1 := by
    intro s hs
    exact List.foldlRecOn (motive := fun p : State × Bool ↦ P p.1) g.elements (passOn g opts)
      (hround s hs) fun p hp e he ↦ hpass p e he hp
  induction fuel generalizing s with
  | zero =>
    rw [settle_zero]
    exact hscan s hs
  | succ fuel ih =>
    cases h : (scan g opts s).2 with
    | false =>
      rw [settle_of_unchanged h]
      exact hscan s hs
    | true =>
      rw [settle_succ_of_changed h]
      exact ih (hscan s hs)

theorem alternate_induction (hsettle : ∀ s, P s → P (settle g opts (bound g) s).1)
    (hplace : ∀ s s', Places g s s' → P s → P s') (fuel : Nat) (hs : P s) :
    P (alternate g opts fuel s) := by
  induction fuel using Nat.strongRecOn generalizing s with
  | ind fuel ih =>
    have hrefs : P (references g s).1 := preserved_of_reflTransGen hplace (references_run g s) hs
    obtain ⟨-, h⟩ | ⟨-, h | ⟨n, hn, h⟩⟩ := alternate_cases g opts fuel s
    · rwa [h]
    · rw [h]
      exact hsettle _ hrefs
    · rw [h]
      exact ih n (by omega) (hsettle _ hrefs)

/-- What holds after the claims, and is kept whenever an element has passed on its context to all of
its targets or has been placed, holds in the end. -/
theorem propagate_induction (hseed : P (seed g opts {}))
    (hround : ∀ s, P s → P { s with rounds := s.rounds + 1 })
    (hpass : ∀ p : State × Bool, ∀ e ∈ g.elements, P p.1 → P (passOn g opts p e).1)
    (hplace : ∀ s s', Places g s s' → P s → P s') : P (propagate g opts) := by
  by_cases hl : g.loops = []
  · rw [propagate_of_no_loops hl]
    rwa [seed_of_no_loops hl] at hseed
  · have hsettle : ∀ s, P s → P (settle g opts (bound g) s).1 := fun _ ↦
      settle_induction hround hpass (bound g)
    cases ho : opts.alternate with
    | true =>
      rw [propagate_of_alternate hl ho]
      exact alternate_induction hsettle hplace _ (hsettle _ hseed)
    | false =>
      rw [propagate_of_not_alternate hl ho]
      exact preserved_of_reflTransGen hplace (references_run g _) (hsettle _ hseed)

end Induction

end FlowAudit.Loops
