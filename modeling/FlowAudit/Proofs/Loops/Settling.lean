import FlowAudit.Proofs.Loops.Witness
import Mathlib.Data.List.Perm.Subperm
import Mathlib.Data.List.ProdSigma

namespace FlowAudit.Loops

open Relation

variable {g : Graph} {opts : Options} {s s' : State} {e : Element}

def Assignment.key (a : Assignment) : String × String × Nat :=
  (a.name, a.context.loop, a.context.depth)

theorem hasHeld_key (a : Assignment) :
    s.hasHeld a.name a.context.loop a.context.depth = true ↔ a.key ∈ s.log.map (·.key) := by
  simp [State.hasHeld_iff, Assignment.key]

theorem not_hasHeld_of_context? {name loop : String} {depth : Nat} (h : s.context? name = none) :
    ¬s.hasHeld name loop depth = true :=
  fun hheld ↦ context?_ne_none_of_hasHeld hheld h

theorem Moves.log_cases (h : Moves g opts s s') : s'.log = s.log ∨
    ∃ a : Assignment, s'.log = a :: s.log ∧ a.key ∉ s.log.map (·.key) := by
  obtain ⟨-, -, -, hs⟩ | h | ⟨-, -, hs, -⟩ := h
  · exact .inr ⟨_, rfl, fun h ↦ not_hasHeld_of_context? hs ((hasHeld_key _).mpr h)⟩
  · cases h with
    | round => exact .inl rfl
    | take _ _ _ _ ha =>
      exact .inr ⟨_, rfl, fun h ↦ (accepts_iff.mp ha).2.2.2 ((hasHeld_key _).mpr h)⟩
  · exact .inr ⟨_, rfl, fun h ↦ not_hasHeld_of_context? hs ((hasHeld_key _).mpr h)⟩

theorem keys_nodup (h : ReflTransGen (Moves g opts) {} s) : (s.log.map (·.key)).Nodup := by
  refine preserved_of_reflTransGen (P := fun s ↦ (s.log.map (·.key)).Nodup) ?_ h List.nodup_nil
  intro s s' h hs
  obtain h | ⟨a, h, ha⟩ := h.log_cases
  · rwa [h]
  · rw [h, List.map_cons]
    exact hs.cons ha

def keys (g : Graph) : List (String × String × Nat) :=
  g.elements.map (·.name) ×ˢ g.loops.map (·.name) ×ˢ List.range' 1 g.loops.length

theorem length_keys (g : Graph) : (keys g).length = bound g := by
  simp [keys, bound, List.length_product, Nat.mul_assoc]

theorem key_mem_keys (hg : g.Distinct) (h : ReflTransGen (Moves g opts) {} s) {a : Assignment}
    (ha : a ∈ s.log) : a.key ∈ keys g := by
  obtain ⟨x, hx, hn, l, path, hw⟩ := (supported_run hg h a ha).1
  have hdepth := hw.depth_le
  simp only [keys, Assignment.key, List.mem_product, List.mem_map, List.mem_range'_1]
  refine ⟨⟨x, hx, hn⟩, ⟨l, hw.isLoop, hw.loop.symm⟩, hw.depth_pos, ?_⟩
  omega

theorem log_length_le (hg : g.Distinct) (h : ReflTransGen (Moves g opts) {} s) :
    s.log.length ≤ bound g := by
  have hsub : s.log.map (·.key) ⊆ keys g := by
    intro k hk
    obtain ⟨a, ha, rfl⟩ := List.mem_map.mp hk
    exact key_mem_keys hg h ha
  calc s.log.length = (s.log.map (·.key)).length := (List.length_map _).symm
    _ ≤ (keys g).length := (List.Nodup.subperm (keys_nodup h) hsub).length_le
    _ = bound g := length_keys g

/-- A pass over elements or targets leaves everything as it is, or tells of a change and has
assigned something. -/
def Grows (p q : State × Bool) : Prop := q = p ∨ q.2 = true ∧ p.1.log.length < q.1.log.length

namespace Grows

variable {p q r : State × Bool}

theorem length_le (h : Grows p q) : p.1.log.length ≤ q.1.log.length := by
  obtain rfl | ⟨-, h⟩ := h
  · exact le_rfl
  · exact h.le

theorem trans (h : Grows p q) (h' : Grows q r) : Grows p r := by
  obtain rfl | ⟨hr, hlt⟩ := h'
  · exact h
  · exact .inr ⟨hr, h.length_le.trans_lt hlt⟩

variable {α : Type} {f : State × Bool → α → State × Bool}

theorem foldl (hf : ∀ p a, Grows p (f p a)) (as : List α) (p : State × Bool) :
    Grows p (as.foldl f p) := by
  induction as generalizing p with
  | nil => exact .inl rfl
  | cons a as ih => exact (hf p a).trans (ih (f p a))

theorem fixed_of_foldl (hf : ∀ p a, Grows p (f p a)) {as : List α} (h : as.foldl f p = p) {a : α}
    (ha : a ∈ as) : f p a = p := by
  induction as with
  | nil => cases ha
  | cons b as ih =>
    rw [List.foldl_cons] at h
    have hb : f p b = p := by
      obtain hb | ⟨-, hlt⟩ := hf p b
      · exact hb
      · have hle := (foldl hf as (f p b)).length_le
        rw [h] at hle
        omega
    obtain rfl | ha := List.mem_cons.mp ha
    · exact hb
    · rw [hb] at h
      exact ih h ha

theorem eq_of_not_changed (h : Grows p q) (hq : q.2 = false) : q = p := by
  obtain h | ⟨hc, -⟩ := h
  · exact h
  · rw [hq] at hc
    cases hc

theorem length_lt_of_changed (h : Grows p q) (hp : p.2 = false) (hq : q.2 = true) :
    p.1.log.length < q.1.log.length := by
  obtain rfl | ⟨-, h⟩ := h
  · rw [hp] at hq
    cases hq
  · exact h

end Grows

theorem grows_handOver (c : Context) (p : State × Bool) (t : String) :
    Grows p (handOver g e c p t) := by
  obtain h | ⟨cand, -, -, h⟩ := handOver_cases g e c p t
  · exact .inl h
  · exact .inr ⟨by rw [h], by simp [h]⟩

theorem grows_passOn (p : State × Bool) (e : Element) : Grows p (passOn g opts p e) := by
  cases hc : p.1.context? e.name with
  | none => exact .inl (passOn_of_none hc)
  | some c =>
    rw [passOn_of_some hc]
    exact Grows.foldl (grows_handOver c) _ p

theorem grows_placeByReference (p : State × Bool) (e : Element) :
    Grows p (placeByReference g p e) := by
  obtain h | ⟨loop, -, -, -, h⟩ := placeByReference_cases g p e
  · exact .inl h
  · exact .inr ⟨by rw [h], by simp [h]⟩

/-- No element can still take a context that is passed to it. -/
def Settled (g : Graph) (opts : Options) (s : State) : Prop :=
  ∀ e ∈ g.elements, ∀ c, s.context? e.name = some c → ∀ t ∈ followed g opts e, ∀ cand,
    candidate? g e c t = some cand → ¬accepts g s t cand = true

theorem grows_scan (s : State) :
    Grows ({ s with rounds := s.rounds + 1 }, false) (scan g opts s) :=
  Grows.foldl grows_passOn _ _

theorem not_accepts_of_handOver {c cand : Context} {p : State × Bool} {t : String}
    (h : handOver g e c p t = p) (hcand : candidate? g e c t = some cand) :
    ¬accepts g p.1 t cand = true := by
  intro ha
  simp only [handOver, hcand, ha, if_true] at h
  have hlen := congrArg (fun q : State × Bool ↦ q.1.log.length) h
  simp at hlen

theorem settled_of_passOn {p : State × Bool} (h : ∀ e ∈ g.elements, passOn g opts p e = p) :
    Settled g opts p.1 := by
  intro e he c hc t ht cand hcand
  have hfold : (followed g opts e).foldl (handOver g e c) p = p := passOn_of_some hc ▸ h e he
  exact not_accepts_of_handOver (Grows.fixed_of_foldl (grows_handOver c) hfold ht) hcand

theorem settled_of_scan (h : (scan g opts s).2 = false) : Settled g opts (scan g opts s).1 := by
  have heq := (grows_scan s).eq_of_not_changed h
  rw [heq]
  exact settled_of_passOn fun e he ↦ Grows.fixed_of_foldl grows_passOn heq he

theorem scan_moves (h : ReflTransGen (Moves g opts) {} s) :
    ReflTransGen (Moves g opts) {} (scan g opts s).1 :=
  h.trans (moves_of_continues (continues_of_passes (scan_run g opts s)))

/-- Scans one after another, without a limit: the last one changes nothing. -/
inductive Settles (g : Graph) (opts : Options) : State → State × Bool → Prop
  | last {s : State} (h : (scan g opts s).2 = false) : Settles g opts s (scan g opts s)
  | again {s : State} {r : State × Bool} (h : (scan g opts s).2 = true)
      (hrest : Settles g opts (scan g opts s).1 r) : Settles g opts s (r.1, true)

theorem Settles.settled {r : State × Bool} (h : Settles g opts s r) : Settled g opts r.1 := by
  induction h with
  | last h => exact settled_of_scan h
  | again _ _ ih => exact ih

/-- With as much fuel as there may still be assignments, the scans go on until nothing changes. -/
theorem settles_settle (hg : g.Distinct) {fuel : Nat} (h : ReflTransGen (Moves g opts) {} s)
    (hfuel : bound g ≤ s.log.length + fuel) : Settles g opts s (settle g opts fuel s) := by
  induction fuel generalizing s with
  | zero =>
    rw [settle_zero]
    apply Settles.last
    -- All assignments there can be have been made.
    by_contra hc
    have hlt := (grows_scan s).length_lt_of_changed rfl (by simpa using hc)
    have hle := log_length_le hg (scan_moves h)
    simp only at hlt
    omega
  | succ fuel ih =>
    cases hc : (scan g opts s).2 with
    | false =>
      rw [settle_of_unchanged hc]
      exact .last hc
    | true =>
      rw [settle_succ_of_changed hc]
      have hlt := (grows_scan s).length_lt_of_changed rfl hc
      refine .again hc (ih (scan_moves h) ?_)
      simp only at hlt
      omega

theorem settled_settle (hg : g.Distinct) {fuel : Nat} (h : ReflTransGen (Moves g opts) {} s)
    (hfuel : bound g ≤ s.log.length + fuel) : Settled g opts (settle g opts fuel s).1 :=
  (settles_settle hg h hfuel).settled

end FlowAudit.Loops
