import FlowAudit.Proofs.Resolution.Memo
import Mathlib

namespace FlowAudit

/-- What is counted of a flow, and added up over the flows that it calls. -/
inductive Measure where
  | complexity
  | dml
  | soql
  deriving DecidableEq

namespace Measure

def own (a : Analysis) : Measure → Int
  | complexity => a.findings.complexity
  | dml => a.findings.directDmlCount
  | soql => a.findings.directSoqlCount

def total (a : Analysis) : Measure → Int
  | complexity => a.findings.cumulativeComplexity
  | dml => a.findings.cumulativeDmlCount
  | soql => a.findings.cumulativeSoqlCount

def count (metrics : Metrics) : Measure → Nat
  | complexity => metrics.complexity
  | dml => metrics.dmlCount
  | soql => metrics.soqlCount

end Measure

theorem wrap64_wrap64 (n : Int) : wrap64 (wrap64 n) = wrap64 n := Int.bmod_bmod ..

theorem wrap64_add_left (m n : Int) : wrap64 (wrap64 m + n) = wrap64 (m + n) := Int.bmod_add_bmod ..

theorem wrap64_of_fits {n : Int} (hmin : -2 ^ 63 ≤ n) (hmax : n < 2 ^ 63) : wrap64 n = n := by
  rw [wrap64]
  exact Int.bmod_eq_of_le (by norm_num; omega) (by norm_num; omega)

namespace Analysis

/-- What the flow has itself and the totals of the flows that it calls, added up without a limit. -/
def sum (a : Analysis) (m : Measure) : Int := m.own a + (a.called.map (m.total ·)).sum

/-- The totals are what the flow has itself and the totals of the flows that it calls, of which none is a
gap, in words of 64 bits: they are that sum as long as it fits, whatever was added on the way. -/
structure AddsUp (a : Analysis) : Prop where
  whole : none ∉ a.children
  total_eq : ∀ m : Measure, m.total a = wrap64 (a.sum m)
  total_eq_of_fits : ∀ m : Measure, -2 ^ 63 ≤ a.sum m → a.sum m < 2 ^ 63 → m.total a = a.sum m

theorem addsUp_iff {a : Analysis} :
    a.AddsUp ↔ none ∉ a.children ∧ ∀ m : Measure, m.total a = wrap64 (a.sum m) := by
  refine ⟨fun h ↦ ⟨h.whole, h.total_eq⟩, fun ⟨hwhole, htotal⟩ ↦ ⟨hwhole, htotal, fun m hmin hmax ↦ ?_⟩⟩
  rw [htotal, wrap64_of_fits hmin hmax]

end Analysis

def Outcome.AddsUp (o : Outcome) : Prop := ∀ a, o = .ok a → ∀ n ∈ a.nodes, n.AddsUp

theorem Outcome.addsUp_error (e : Failure) : Outcome.AddsUp (.error e) :=
  fun a h ↦ by cases h

namespace Resolve

variable {src : Source} {opts : Resolver.Options} {called : String → Outcome} {md : Metadata}
  {version : Option Version} {depth : Int} {name : String} {o : Outcome} {a : Analysis}

def ownMetrics (opts : Resolver.Options) (md : Metadata) (depth : Int) : Metrics :=
  .compute md (.build md) (Loops.propagate (.build md) opts.loops) depth

theorem called_takeIn (name : String) (isInLoop : Bool) (o : Outcome) (a : Analysis) :
    (takeIn name isInLoop o a).called = a.called ++ o.toOption.toList := by
  rw [Analysis.called, children_takeIn, List.filterMap_append]
  cases o <;> rfl

theorem own_takeIn (m : Measure) (name : String) (isInLoop : Bool) (o : Outcome) (a : Analysis) :
    m.own (takeIn name isInLoop o a) = m.own a := by
  obtain ⟨f, children⟩ := a
  cases m <;> cases isInLoop <;> cases o <;> rfl

theorem total_takeIn (name : String) (isInLoop : Bool) (o : Outcome) {m : Measure} {n : Int}
    (h : m.total a = wrap64 n) :
    m.total (takeIn name isInLoop o a) = wrap64 (n + (o.toOption.toList.map (m.total ·)).sum) := by
  obtain ⟨f, children⟩ := a
  cases o with
  | error e =>
    have hsum : n + ((Except.error e : Outcome).toOption.toList.map (m.total ·)).sum = n := add_zero n
    rw [hsum, ← h]
    cases m <;> cases isInLoop <;> rfl
  | ok child =>
    have hsum : ((Except.ok child : Outcome).toOption.toList.map (m.total ·)).sum =
        m.total child := by simp [Except.toOption]
    rw [hsum, ← wrap64_add_left, ← h]
    cases m <;> cases isInLoop <;> rfl

/-- Taking in a call keeps the totals right. -/
theorem addsUp_takeIn (name : String) (isInLoop : Bool) (o : Outcome) (h : a.AddsUp) :
    (takeIn name isInLoop o a).AddsUp := by
  refine Analysis.addsUp_iff.mpr ⟨fun hgap ↦ ?_, fun m ↦ ?_⟩
  · rw [children_takeIn, List.mem_append] at hgap
    simp [h.whole] at hgap
  · rw [total_takeIn name isInLoop o (h.total_eq m), Analysis.sum, Analysis.sum, own_takeIn, called_takeIn,
      List.map_append, List.sum_append, add_assoc]

/- Both are shown by rewriting: to compare them by evaluation would be to evaluate the word. -/
theorem own_ofMetrics (g : Graph) (s : Loops.State) (metrics : Metrics) (m : Measure) :
    m.own (.node (.ofMetrics md g s metrics depth) []) = wrap64 (m.count metrics) := by
  unfold Findings.ofMetrics
  cases m <;> rw [Measure.own, Measure.count, Analysis.findings]

theorem total_ofMetrics (g : Graph) (s : Loops.State) (metrics : Metrics) (m : Measure) :
    m.total (.node (.ofMetrics md g s metrics depth) []) = wrap64 (m.count metrics) := by
  unfold Findings.ofMetrics
  cases m <;> rw [Measure.total, Measure.count, Analysis.findings]

theorem own_ownAnalysis (m : Measure) : m.own (ownAnalysis opts md version depth) =
    wrap64 (m.count (ownMetrics opts md depth)) := by
  have hversion (f : Findings) :
      m.own (.node { f with version := version } []) = m.own (.node f []) := by cases m <;> rfl
  rw [ownAnalysis, hversion, Single.analyze]
  exact own_ofMetrics _ _ _ m

theorem total_ownAnalysis (m : Measure) : m.total (ownAnalysis opts md version depth) =
    wrap64 (m.count (ownMetrics opts md depth)) := by
  have hversion (f : Findings) :
      m.total (.node { f with version := version } []) = m.total (.node f []) := by cases m <;> rfl
  rw [ownAnalysis, hversion, Single.analyze]
  exact total_ofMetrics _ _ _ m

theorem addsUp_ownAnalysis (opts : Resolver.Options) (md : Metadata) (version : Option Version)
    (depth : Int) : (ownAnalysis opts md version depth).AddsUp := by
  refine Analysis.addsUp_iff.mpr ⟨List.not_mem_nil, fun m ↦ ?_⟩
  have hsum : (ownAnalysis opts md version depth).sum m = m.own (ownAnalysis opts md version depth) :=
    add_zero _
  rw [hsum, own_ownAnalysis, total_ownAnalysis, wrap64_wrap64]

theorem addsUp_gather (opts : Resolver.Options) (called : String → Outcome) (md : Metadata)
    (version : Option Version) (depth : Int) : (gather opts called md version depth).AddsUp :=
  List.foldlRecOn (motive := Analysis.AddsUp) (callsOf opts md) _
    (addsUp_ownAnalysis opts md version depth)
    fun _ ha call _ ↦ addsUp_takeIn call.1 call.2 (called call.1) ha

theorem outcome_addsUp_gather (h : ∀ call ∈ callsOf opts md, (called call.1).AddsUp) :
    Outcome.AddsUp (.ok (gather opts called md version depth)) := by
  rintro a heq n hn
  obtain rfl := Except.ok.inj heq
  obtain rfl | ⟨b, hb, hn⟩ := Analysis.mem_nodes_iff.mp hn
  · exact addsUp_gather opts called md version depth
  · obtain ⟨call, hcall, hcalled⟩ := mem_children_gather.mp hb
    exact h call hcall b hcalled n hn

theorem outcome_addsUp_depthExceeded (name : String) (depth : Int) :
    Outcome.AddsUp (.ok (.depthExceeded name depth)) := by
  rintro a heq n hn
  obtain rfl := Except.ok.inj heq
  obtain rfl := List.mem_singleton.mp (Analysis.nodes_depthExceeded name depth ▸ hn)
  refine Analysis.addsUp_iff.mpr ⟨List.not_mem_nil, fun m ↦ ?_⟩
  cases m <;> rfl

theorem outcome_addsUp_served (h : o.AddsUp) : o.served.AddsUp := by
  rintro a heq n hn
  cases o with
  | error e => cases heq
  | ok a' =>
    obtain rfl := Except.ok.inj heq
    obtain ⟨f, children⟩ := a'
    obtain rfl | ⟨b, hb, hn⟩ := Analysis.mem_nodes_iff.mp hn
    · have hself := h _ rfl _ (Analysis.mem_nodes_self _)
      refine Analysis.addsUp_iff.mpr ⟨hself.whole, fun m ↦ ?_⟩
      have htotal := hself.total_eq m
      cases m <;> exact htotal
    · exact h _ rfl n (Analysis.mem_nodes_of_child hb hn)

theorem answering_addsUp (src : Source) (opts : Resolver.Options) :
    Answering src opts (fun _ _ _ ↦ True) (fun _ ↦ Outcome.AddsUp)
      (fun _ _ _ ↦ Outcome.AddsUp) where
  limit depth name _ := outcome_addsUp_depthExceeded name depth
  below _ _ _ _ _ _ _ _ _ := trivial
  made left depth name _ o h := by
    cases h with
    | failed => exact Outcome.addsUp_error _
    | gathered _ ha =>
      obtain ⟨called, hcalled, rfl⟩ := ha
      exact outcome_addsUp_gather hcalled
  keep _ _ _ _ _ h := h
  serve _ _ _ _ _ h := outcome_addsUp_served h

/-- Whatever a resolver was asked before, the totals of the analysis of a flow add up at the flow and
at every flow below it: at those analyzed for this call or an earlier one, at those that call
themselves, and at those that lie too deep. -/
theorem totals_add_up (src : Source) (opts : Resolver.Options) (earlier : List Request)
    (root : String) {a : Analysis}
    (ha : ((analyze src opts root).run (after src opts earlier)).1 = .ok a) :
    ∀ n ∈ a.nodes, n.AddsUp := by
  have h := answering_addsUp src opts
  have hanswer := h.gives_answer (P := Outcome.AddsUp) Outcome.addsUp_error
    (fun _ _ _ _ ho ↦ ho) (fun md version a hgathered ↦ ?_) (.named root)
  · exact (hanswer _ (h.holds_after earlier)).1 a ha
  · obtain ⟨called, hcalled, rfl⟩ := hgathered
    exact outcome_addsUp_gather hcalled

/-- The flow `C` is called by two others and by itself, and calls one that is not there. -/
def recursiveFlows : Source :=
  (Memory.ofList [callingFlow "A" ["B", "C"], callingFlow "B" ["C"],
    callingFlow "C" ["C", "D"]]).source none

/-- Below `A` there are an analysis from an earlier call and flows that lie too deep. -/
theorem recursive_totals_add_up :
    ∃ a, ((analyze recursiveFlows { maxDepth := 4 } "A").run
        (after recursiveFlows { maxDepth := 4 } [.called 3 "B" true])).1 = .ok a ∧
      (∃ n ∈ a.nodes, n.findings.isCached = true) ∧ (∃ n ∈ a.nodes, n.isDepthExceeded = true) ∧
      ∀ n ∈ a.nodes, n.AddsUp := by
  have hrun : ((analyze recursiveFlows { maxDepth := 4 } "A").run
      (after recursiveFlows { maxDepth := 4 } [.called 3 "B" true])).1.toOption.any (fun a ↦
        a.nodes.any (·.findings.isCached) && a.nodes.any (·.isDepthExceeded)) = true := by
    decide +kernel
  cases ha : ((analyze recursiveFlows { maxDepth := 4 } "A").run
      (after recursiveFlows { maxDepth := 4 } [.called 3 "B" true])).1 with
  | error e =>
    rw [ha] at hrun
    cases hrun
  | ok a =>
    rw [ha] at hrun
    simp only [Except.toOption, Option.any_some, Bool.and_eq_true, List.any_eq_true] at hrun
    exact ⟨a, rfl, hrun.1, hrun.2, totals_add_up recursiveFlows _ _ "A" ha⟩

end Resolve

end FlowAudit
