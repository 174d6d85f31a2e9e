import FlowAudit.Proofs.Resolution.Steps
import FlowAudit.Proofs.Resolution.Totals

namespace FlowAudit

namespace Metrics

variable {m : Metrics} {text : String}

/-- Every concern is put in words with a bracket, or with one of the two bounds. -/
theorem exists_mark_of_mem_reasons (h : text ∈ m.reasons) :
    ∃ c ∈ ['(', '8', '5'], c ∈ text.toList := by
  simp only [reasons, List.mem_append, List.mem_ite_nil_right, List.mem_singleton] at h
  obtain (((⟨-, rfl⟩ | ⟨-, rfl⟩) | ⟨-, rfl⟩) | ⟨-, rfl⟩) | ⟨-, rfl⟩ := h
  · exact ⟨'8', by simp, by simp⟩
  · exact ⟨'(', by simp, by simp⟩
  · exact ⟨'(', by simp, by simp⟩
  · exact ⟨'5', by simp, by simp⟩
  · exact ⟨'(', by simp, by simp⟩

theorem mem_toList_intercalate {separator : String} {texts : List String} {c : Char}
    (h : text ∈ texts) (hc : c ∈ text.toList) : c ∈ (separator.intercalate texts).toList := by
  induction texts with
  | nil => cases h
  | cons t texts ih =>
    cases texts with
    | nil =>
      obtain rfl := List.mem_singleton.mp h
      simpa using hc
    | cons u texts =>
      rw [String.intercalate_cons_cons, String.toList_append, List.mem_append]
      obtain rfl | h := List.mem_cons.mp h
      · exact .inl (by simp [hc])
      · exact .inr (ih h)

/-- What is found out about a flow is not what stands for a flow that lies too deep. -/
theorem reason_ne_depthExceededReason (m : Metrics) : m.reason ≠ Analysis.depthExceededReason := by
  intro heq
  rw [reason] at heq
  split at heq
  next => exact absurd heq (by decide)
  next hsome =>
    obtain ⟨text, htext⟩ := List.exists_mem_of_ne_nil m.reasons (by simpa using hsome)
    obtain ⟨c, hmark, hc⟩ := exists_mark_of_mem_reasons htext
    have hunmarked : ∀ c ∈ ['(', '8', '5'], c ∉ Analysis.depthExceededReason.toList := by
      simp [Analysis.depthExceededReason]
    exact hunmarked c hmark (heq ▸ mem_toList_intercalate htext hc)

end Metrics

namespace Analysis

/-- The depths at the analysis and at those right below it are as the limit requires. -/
structure DepthsFit (limit : Nat) (a : Analysis) : Prop where
  within : a.findings.depth ≤ limit
  isDepthExceeded_iff : a.isDepthExceeded = true ↔ a.findings.depth = limit
  depthExceeded : a.findings.depth = limit → a = .depthExceeded a.name limit
  child : ∀ c, some c ∈ a.children → c.findings.isCached = false →
    c.findings.depth = a.findings.depth + 1
  cached : ∀ c, some c ∈ a.children → c.findings.isCached = true →
    1 ≤ c.findings.depth ∧ c.findings.depth ≤ limit - 1

end Analysis

namespace Resolve

variable {src : Source} {opts : Resolver.Options} {called : String → Outcome} {md : Metadata}
  {version : Option Version} {depth : Int} {name : String} {o : Outcome} {limit : Nat}

theorem depth_gather : (gather opts called md version depth).findings.depth = depth := by
  rw [← Analysis.proper_depth, proper_gather]
  rfl

theorem isCached_gather : (gather opts called md version depth).findings.isCached = false := by
  rw [← Analysis.proper_isCached, proper_gather]
  rfl

theorem isDepthExceeded_gather :
    (gather opts called md version depth).isDepthExceeded = false := by
  have hreason : (ownAnalysis opts md version depth).proper.reason = (Metrics.compute md
      (Graph.build md) (Loops.propagate (Graph.build md) opts.loops) depth).reason := by
    simp only [Analysis.proper, ownAnalysis, Analysis.findings, Single.analyze, Findings.ofMetrics]
  rw [Analysis.isDepthExceeded, ← Analysis.proper_reason, proper_gather, hreason,
    beq_eq_false_iff_ne.mpr (Metrics.reason_ne_depthExceededReason _), Bool.false_and]

def PlacedAt (limit : Nat) (depth : Int) (a : Analysis) : Prop :=
  if a.findings.isCached then 1 ≤ a.findings.depth ∧ a.findings.depth ≤ limit - 1
  else a.findings.depth = depth

def FitsAt (limit : Nat) (depth : Int) (o : Outcome) : Prop :=
  ∀ a, o = .ok a → PlacedAt limit depth a ∧ ∀ n ∈ a.nodes, n.DepthsFit limit

theorem depthsFit_gather (hdepth : depth < limit)
    (hcalled : ∀ call ∈ callsOf opts md, FitsAt limit (depth + 1) (called call.1)) :
    ∀ n ∈ (gather opts called md version depth).nodes, n.DepthsFit limit := by
  intro n hn
  obtain rfl | ⟨b, hb, hn⟩ := Analysis.mem_nodes_iff.mp hn
  · have hplaced (c : Analysis) (hc : some c ∈ (gather opts called md version depth).children) :
        PlacedAt limit (depth + 1) c := by
      obtain ⟨call, hcall, hok⟩ := mem_children_gather.mp hc
      exact (hcalled call hcall c hok).1
    refine ⟨?_, ?_, ?_, fun c hc hcached ↦ ?_, fun c hc hcached ↦ ?_⟩
    · rw [depth_gather]
      omega
    · rw [isDepthExceeded_gather, depth_gather]
      simp [Int.ne_of_lt hdepth]
    · rw [depth_gather]
      exact fun heq ↦ absurd heq (Int.ne_of_lt hdepth)
    · have h := hplaced c hc
      rw [PlacedAt, hcached, if_neg Bool.false_ne_true] at h
      rw [h, depth_gather]
    · have h := hplaced c hc
      rwa [PlacedAt, hcached, if_pos rfl] at h
  · obtain ⟨call, hcall, hok⟩ := mem_children_gather.mp hb
    exact (hcalled call hcall b hok).2 n hn

theorem depthsFit_depthExceeded (name : String) (limit : Nat) :
    (Analysis.depthExceeded name limit).DepthsFit limit where
  within := Int.le_refl _
  isDepthExceeded_iff := iff_of_true (Analysis.isDepthExceeded_depthExceeded name limit) rfl
  depthExceeded _ := rfl
  child c hc := by cases hc
  cached c hc := by cases hc

theorem depthsFit_served {a : Analysis} (h : a.DepthsFit limit) (hdepth : a.findings.depth < limit) :
    (a.mapFindings fun f ↦ { f with isCached := true }).DepthsFit limit := by
  obtain ⟨f, children⟩ := a
  exact ⟨h.within, h.isDepthExceeded_iff, fun heq ↦ absurd heq (Int.ne_of_lt hdepth), h.child,
    h.cached⟩

theorem answering_fitsAt (src : Source) (opts : Resolver.Options) :
    Answering src opts
      (fun left depth _ ↦ 0 < depth ∧ (left : Int) + depth = opts.maxDepth)
      (fun _ o ↦ ∀ a, o = .ok a → 1 ≤ a.findings.depth ∧ a.findings.depth ≤ opts.maxDepth - 1 ∧
        ∀ n ∈ a.nodes, n.DepthsFit opts.maxDepth)
      (fun _ depth _ ↦ FitsAt opts.maxDepth depth) where
  limit depth name h a heq := by
    obtain rfl := Except.ok.inj heq
    have hdepth : depth = opts.maxDepth := by omega
    refine ⟨rfl, fun n hn ↦ ?_⟩
    obtain rfl := List.mem_singleton.mp (Analysis.nodes_depthExceeded name depth ▸ hn)
    exact hdepth ▸ depthsFit_depthExceeded name opts.maxDepth
  below left depth name h _ _ _ _ _ := by omega
  made left depth name h o hmade a heq := by
    cases hmade with
    | failed => cases heq
    | gathered _ ha =>
      obtain ⟨called, hcalled, rfl⟩ := ha
      obtain rfl := Except.ok.inj heq
      refine ⟨?_, depthsFit_gather (by omega) hcalled⟩
      rw [PlacedAt, isCached_gather, if_neg Bool.false_ne_true, depth_gather]
  keep left depth name h o hfits a heq := by
    obtain ⟨hplaced, hnodes⟩ := hfits a heq
    rw [PlacedAt] at hplaced
    split at hplaced
    next => exact ⟨hplaced.1, hplaced.2, hnodes⟩
    next => exact ⟨by omega, by omega, hnodes⟩
  serve left depth name h o hkept a heq := by
    cases o with
    | error e => cases heq
    | ok a' =>
      obtain rfl := Except.ok.inj heq
      obtain ⟨hpos, hle, hnodes⟩ := hkept a' rfl
      obtain ⟨f, children⟩ := a'
      refine ⟨⟨hpos, hle⟩, fun n hn ↦ ?_⟩
      obtain rfl | ⟨b, hb, hn⟩ := Analysis.mem_nodes_iff.mp hn
      · exact depthsFit_served (hnodes _ (Analysis.mem_nodes_self _)) (by omega)
      · exact hnodes n (Analysis.mem_nodes_of_child hb hn)

/-- However the flows of a source call each other, the work of a new resolver on a flow ends with an
answer, and in the analysis that it tells all depths are as the limit requires. -/
theorem analyze_ends_within_limit (src : Source) (opts : Resolver.Options) (root : String)
    (hlimit : 1 ≤ opts.maxDepth) :
    (∃ n, ∀ k, n ≤ k → (Moment.next src opts)^[k] (.initial (.named root) {}) =
      .final ((analyze src opts root).run {})) ∧
    ∀ a, ((analyze src opts root).run {}).1 = .ok a → ∀ n ∈ a.nodes, n.DepthsFit opts.maxDepth := by
  refine ⟨ends_with_answer src opts (.named root) {}, fun a ha ↦ ?_⟩
  have hanswer := ((answering_fitsAt src opts).gives_analyze root (fun _ _ _ _ _ ↦ by omega) {}
    (holds_empty src _)).1
  rw [ha] at hanswer
  generalize readFlow src root = read at hanswer
  cases hanswer with
  | gathered hgathered =>
    obtain ⟨called, hcalled, rfl⟩ := hgathered
    exact depthsFit_gather (by omega) hcalled

/-- Below `A` there are an analysis from an earlier call and flows that lie too deep. -/
theorem recursive_depths_fit :
    1 ≤ 4 ∧ ∃ a, ((analyze recursiveFlows { maxDepth := 4 } "A").run {}).1 = .ok a ∧
      (∃ n ∈ a.nodes, n.findings.isCached = true) ∧ (∃ n ∈ a.nodes, n.isDepthExceeded = true) ∧
      ∀ n ∈ a.nodes, n.DepthsFit 4 := by
  have hrun : ((analyze recursiveFlows { maxDepth := 4 } "A").run {}).1.toOption.any (fun a ↦
      a.nodes.any (·.findings.isCached) && a.nodes.any (·.isDepthExceeded)) = true := by
    decide +kernel
  cases ha : ((analyze recursiveFlows { maxDepth := 4 } "A").run {}).1 with
  | error e =>
    rw [ha] at hrun
    cases hrun
  | ok a =>
    rw [ha] at hrun
    simp only [Except.toOption, Option.any_some, Bool.and_eq_true, List.any_eq_true] at hrun
    have hfits := (analyze_ends_within_limit recursiveFlows { maxDepth := 4 } "A" (by decide)).2 a ha
    exact ⟨by decide, a, rfl, hrun.1, hrun.2, hfits⟩

end Resolve

end FlowAudit
