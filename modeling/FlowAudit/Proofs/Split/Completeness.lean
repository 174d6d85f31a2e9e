import FlowAudit.Proofs.Fingerprint.Versions
import FlowAudit.Proofs.Resolution.Below
import FlowAudit.Proofs.Split.Walk

namespace FlowAudit

namespace Split

variable {m n : Analysis}

theorem Exceeds.congr (h : ∀ k : Measure, k.total m = k.total n) (hm : Exceeds m.findings) :
    Exceeds n.findings := by
  have hcomplexity : m.findings.cumulativeComplexity = n.findings.cumulativeComplexity := h .complexity
  have hdml : m.findings.cumulativeDmlCount = n.findings.cumulativeDmlCount := h .dml
  have hsoql : m.findings.cumulativeSoqlCount = n.findings.cumulativeSoqlCount := h .soql
  rwa [Exceeds, operations, hcomplexity, hdml, hsoql] at hm

end Split

namespace Resolve

open Split Fingerprint

variable {src : Source} {opts : Resolver.Options} {root : String} {a b n : Analysis}

def Recommends (a : Analysis) (name : String) : Prop :=
  ∃ r ∈ a.findings.recommendations.getD [], r.flow = name ∧ r.shouldSplit = true

instance (a : Analysis) (name : String) : Decidable (Recommends a name) :=
  inferInstanceAs (Decidable (∃ r ∈ a.findings.recommendations.getD [],
    r.flow = name ∧ r.shouldSplit = true))

theorem recommends_recommended_iff (a : Analysis) (name : String) :
    Recommends (recommended a) name ↔ ∃ m ∈ met a, m.name = name ∧ Exceeds m.findings := by
  obtain ⟨f, children⟩ := a
  exact exists_recommended_iff (.node f children) name

/-- What does not depend on the recommendations is met with them as without. -/
theorem exists_met_recommended_iff {P : Analysis → Prop} (h : P (recommended a) ↔ P a) :
    (∃ m ∈ met (recommended a), P m) ↔ ∃ m ∈ met a, P m := by
  obtain ⟨f, children⟩ := a
  rw [met_eq_cons, met_eq_cons, List.exists_mem_cons_iff, List.exists_mem_cons_iff, h]
  rfl

theorem forall_nodes_recommended_iff {P : Analysis → Prop} (h : P (recommended a) ↔ P a) :
    (∀ n ∈ (recommended a).nodes, P n) ↔ ∀ n ∈ a.nodes, P n := by
  obtain ⟨f, children⟩ := a
  rw [Analysis.nodes_eq_cons, Analysis.nodes_eq_cons, List.forall_mem_cons, List.forall_mem_cons, h]
  rfl

theorem Tells.exists_met (hnames : NamesDiffer src) (h : Tells src opts root (.ok a))
    (hmade : ∀ n ∈ a.nodes, ∀ name depth, n ≠ .depthExceeded name depth) (hn : n ∈ a.nodes) :
    ∃ m ∈ met a, m.name = n.name := by
  refine (isClosed_countedOf [] a).2.exists_mem (fun m hm c hc hname b hb ↦ ?_)
    ⟨a, mem_met_self a, rfl⟩ n hn
  have hm := mem_nodes_of_mem_countedOf hm
  obtain ⟨t, -, htells⟩ := h.of_mem_nodes hc
  obtain ⟨t', -, htells'⟩ := h.of_mem_nodes hm
  exact htells.exists_child hnames htells' hname (fun x hx ↦ hmade x (Analysis.mem_nodes_trans hc hx))
    (fun x hx ↦ hmade x (Analysis.mem_nodes_trans hm hx)) hb

/-- Where no calls lie too deep, an analysis is met that tells the same totals of the flow. -/
theorem exists_met_of_mem_nodes (hnames : NamesDiffer src)
    (ha : ((analyze src opts root).run {}).1 = .ok a)
    (hcomplete : ∀ n ∈ a.nodes, n.isDepthExceeded = false) (hn : n ∈ a.nodes) :
    ∃ m ∈ met a, m.name = n.name ∧ ∀ k : Measure, k.total m = k.total n := by
  obtain ⟨⟨md, version, hread, haccounted⟩, -⟩ := exists_told_below ha
  obtain ⟨m, hm, hname⟩ :=
    (Tells.analyzed hread haccounted).exists_met hnames (ne_depthExceeded hcomplete) hn
  rw [Analysis.nodes_eq_cons] at hn
  obtain rfl | hn := List.mem_cons.1 hn
  · exact ⟨n, mem_met_self n, rfl, fun _ ↦ rfl⟩
  · refine ⟨m, hm, hname, total_eq_of_name_eq hnames ha hcomplete ?_ hn hname⟩
    have hm := mem_nodes_of_mem_countedOf hm
    rw [Analysis.nodes_eq_cons] at hm
    refine (List.mem_cons.1 hm).resolve_left ?_
    rintro rfl
    exact name_ne_of_mem_descendants hnames ha hcomplete hn hname.symm

/-- A flow is recommended to be split exactly if the first analysis of its name that is met has totals
over a limit. If documents of different flows hold different names and no calls lie too deep, then every
flow with totals over a limit is recommended. -/
theorem recommended_iff_first_met_exceeds (src : Source) (opts : Resolver.Options) (root : String)
    (hb : ((analyze src opts root).run {}).1.map recommended = .ok b) :
    (∀ name, Recommends b name ↔ ∃ m ∈ met b, m.name = name ∧ Exceeds m.findings) ∧
    (NamesDiffer src → (∀ n ∈ b.nodes, n.isDepthExceeded = false) →
      ∀ n ∈ b.nodes, Exceeds n.findings → Recommends b n.name) := by
  cases ha : ((analyze src opts root).run {}).1 with
  | error e =>
    rw [ha] at hb
    cases hb
  | ok a =>
    rw [ha] at hb
    obtain rfl := Except.ok.inj hb
    refine ⟨fun name ↦ ?_, fun hnames hcomplete ↦ ?_⟩
    · rw [recommends_recommended_iff, exists_met_recommended_iff (by cases a; rfl)]
    · rw [forall_nodes_recommended_iff (by cases a; rfl)] at hcomplete ⊢
      intro n hn hexceeds
      obtain ⟨m, hm, hname, htotal⟩ := exists_met_of_mem_nodes hnames ha hcomplete hn
      have hexceeds' : Exceeds m.findings := hexceeds.congr fun k ↦ (htotal k).symm
      exact (recommends_recommended_iff a n.name).2 ⟨m, hm, hname, hexceeds'⟩

/-- The flow `C` is called by `A` and by `B`, and calls five flows that are not there. -/
def heavyFlows : Source :=
  (Memory.ofList [callingFlow "A" ["B", "C"], callingFlow "B" ["C"],
    callingFlow "C" ["D", "E", "F", "G", "H"]]).source none

theorem heavy_flow_recommended :
    NamesDiffer heavyFlows ∧ ∃ b, ((analyze heavyFlows {} "A").run {}).1.map recommended = .ok b ∧
      (∀ n ∈ b.nodes, n.isDepthExceeded = false) ∧
      (∃ n ∈ b.nodes, n.name = "C" ∧ Exceeds n.findings) ∧ Recommends b "C" := by
  have hnames : NamesDiffer heavyFlows :=
    namesDiffer_memory ["A", "B", "C"] (by decide +kernel) (by decide +kernel)
  obtain ⟨b, hb, h⟩ := exists_of_map_eq_some
    (show (((analyze heavyFlows {} "A").run {}).1.map recommended).toOption.map (fun b ↦
        (decide (∀ n ∈ b.nodes, n.isDepthExceeded = false),
          decide (∃ n ∈ b.nodes, n.name = "C" ∧ Exceeds n.findings))) = some (true, true) by
      decide +kernel)
  obtain ⟨hcomplete, hheavy⟩ := Prod.mk.inj h
  obtain ⟨n, hn, hname, hexceeds⟩ := of_decide_eq_true hheavy
  have hrecommended := (recommended_iff_first_met_exceeds heavyFlows {} "A" hb).2 hnames
    (of_decide_eq_true hcomplete) n hn hexceeds
  exact ⟨hnames, b, hb, of_decide_eq_true hcomplete, of_decide_eq_true hheavy, hname ▸ hrecommended⟩

def twinFlow (name : String) (calls : List String) : Definition :=
  let call (flow : String) := Text.braces ("\"flowName\":\"" ++ flow ++ "\"")
  let text := Text.braces ("\"fullName\":\"Twin\",\"subflows\":[" ++ ",".intercalate (calls.map call) ++ "]")
  { name := name, format := "json", content := Text.Utf8.encode text.toList }

def twinFlows : Source :=
  (Memory.ofList [callingFlow "A" ["B", "C"], twinFlow "B" [],
    twinFlow "C" ["D", "E", "F", "G", "H"]]).source none

/-- Not every flow with totals over a limit is recommended. Where the call of `C` by `B` lies too deep,
what stands for it is met before the analysis of `C` for the call by `A`. And of the two flows whose
documents hold the same name, the first that is met is not to be split. -/
theorem heavy_flow_passed_over :
    (∃ b, ((analyze heavyFlows { maxDepth := 2 } "A").run {}).1.map recommended = .ok b ∧
      ∃ n ∈ b.nodes, Exceeds n.findings ∧ ¬Recommends b n.name) ∧
    ∃ b, ((analyze twinFlows {} "A").run {}).1.map recommended = .ok b ∧
      (∀ n ∈ b.nodes, n.isDepthExceeded = false) ∧
      ∃ n ∈ b.nodes, Exceeds n.findings ∧ ¬Recommends b n.name := by
  constructor
  · obtain ⟨b, hb, h⟩ := exists_of_map_eq_some
      (show (((analyze heavyFlows { maxDepth := 2 } "A").run {}).1.map recommended).toOption.map (fun b ↦
          decide (∃ n ∈ b.nodes, Exceeds n.findings ∧ ¬Recommends b n.name)) = some true by
        decide +kernel)
    exact ⟨b, hb, of_decide_eq_true h⟩
  · obtain ⟨b, hb, h⟩ := exists_of_map_eq_some
      (show (((analyze twinFlows {} "A").run {}).1.map recommended).toOption.map (fun b ↦
          decide ((∀ n ∈ b.nodes, n.isDepthExceeded = false) ∧
            ∃ n ∈ b.nodes, Exceeds n.findings ∧ ¬Recommends b n.name)) = some true by
        decide +kernel)
    exact ⟨b, hb, of_decide_eq_true h⟩

end Resolve

end FlowAudit
