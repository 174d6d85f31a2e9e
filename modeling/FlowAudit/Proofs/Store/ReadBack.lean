import FlowAudit.Proofs.Analysis.Reading
import FlowAudit.Proofs.Store.Engine

namespace FlowAudit

namespace Record

theorem decode_compact {a : Analysis} (hsound : ∀ n ∈ a.nodes, n.IsSound)
    (hwritable : a.unwritable? = none) : decode a.toJson.compact = .ok a.inMinutes := by
  have hnesting := ((Analysis.unwritable?_eq_none_iff hsound).1 hwritable).2
  have hread : Analysis.ofJson a.toJson.reread = .ok a.inMinutes :=
    Analysis.ofLayers_toJson hsound hwritable (by rw [Json.nesting_reread]; omega)
  rw [decode, Json.parse_compact a.isWhole_toJson, if_pos hnesting]
  simp only [Except.mapError, ok_bind, hread]

theorem ofRun_toRun {e : Engine} (he : e.Lawful) {r : Record} {a : Analysis}
    (hid : Uuid.normalize? r.id = some r.id) (htells : e.Tells r.createdAt)
    (hanalysis : decode r.analysis.toJson.compact = .ok a) :
    ofRun e r.toRun = .ok { r with analysis := a } := by
  simp only [ofRun, toRun, he.readTime_eq htells, ok_bind, hid, hanalysis, Except.mapError]
  rfl

/-- An analysis whose years have four digits is stored without fail and read back as it was, and what is
read back has the text that was stored, exactly if its zones are of whole minutes and less than a day from
UTC and it does not nest too deeply. -/
theorem analysis_read_back_iff {a : Analysis} (hsound : ∀ n ∈ a.nodes, n.IsSound)
    (hyears : ∀ n ∈ a.nodes, ∀ v ∈ n.findings.version,
      0 ≤ v.lastModified.year ∧ v.lastModified.year ≤ 9999) (id checksum : String) (now : Time) :
    (a.unwritable? = none ∧ decode (ofAnalysis id checksum now a).toRun.result = .ok a ∧
      (decode (ofAnalysis id checksum now a).toRun.result).map (·.toJson.compact) =
        .ok (ofAnalysis id checksum now a).toRun.result) ↔
    (∀ n ∈ a.nodes, ∀ v ∈ n.findings.version,
      v.lastModified.offset % 60 = 0 ∧ v.lastModified.offset.natAbs < 24 * 3600) ∧
      a.toJson.nesting ≤ Json.maxNesting := by
  have hresult : (ofAnalysis id checksum now a).toRun.result = a.toJson.compact := rfl
  have htimes : a.TimesWritable ↔
      ∀ n ∈ a.nodes, ∀ v ∈ n.findings.version, v.lastModified.offset.natAbs < 24 * 3600 := by
    refine forall₂_congr fun n hn ↦ forall₂_congr fun v hv ↦ ?_
    rw [Time.unwritable?_eq_none_iff]
    exact ⟨fun h ↦ h.2.2, fun h ↦ ⟨(hyears n hn v hv).1, (hyears n hn v hv).2, h⟩⟩
  have hwritable : a.unwritable? = none ↔
      (∀ n ∈ a.nodes, ∀ v ∈ n.findings.version, v.lastModified.offset.natAbs < 24 * 3600) ∧
        a.toJson.nesting ≤ Json.maxNesting := by
    rw [Analysis.unwritable?_eq_none_iff hsound, htimes]
  rw [hresult]
  constructor
  · rintro ⟨hnone, hdecode, -⟩
    rw [decode_compact hsound hnone] at hdecode
    have hsame := Analysis.inMinutes_eq_self_iff.1 (Except.ok.inj hdecode)
    obtain ⟨hzones, hnesting⟩ := hwritable.1 hnone
    exact ⟨fun n hn v hv ↦ ⟨hsame n hn v hv, hzones n hn v hv⟩, hnesting⟩
  · rintro ⟨htold, hnesting⟩
    have hnone := hwritable.2 ⟨fun n hn v hv ↦ (htold n hn v hv).2, hnesting⟩
    have hsame := Analysis.inMinutes_eq_self_iff.2 fun n hn v hv ↦ (htold n hn v hv).1
    rw [decode_compact hsound hnone, hsame]
    exact ⟨hnone, rfl, rfl⟩

/-- An analysis with a gap among the called flows, an empty list beside a missing one, and a time in a
zone of its own. -/
def paymentAnalysis : Analysis :=
  let modified : Time := { seconds := 1700000000, nanos := 120000000, offset := 19800 }
  let refund : Analysis := .node { name := "Refund", isCached := true, recommendations := some [] } []
  .node
    { name := "Payment \"λ\"", version := some ⟨7, "Active", modified⟩
      kindCounts := [("Loop", 2), ("Subflow", -3)], score := 55, reason := "<loop>\n"
      loopContexts := some [("Call", { isInLoop := true, path := some [] }), ("Loop", { depth := 1 })]
      subflowsInLoop := ["Refund"], hasChildren := true }
    [none, some refund]

theorem payment_analysis_read_back :
    (∀ n ∈ paymentAnalysis.nodes, n.IsSound) ∧ paymentAnalysis.unwritable? = none ∧
      decode (ofAnalysis "1" "2" Time.zero paymentAnalysis).toRun.result = .ok paymentAnalysis :=
  have hsound : ∀ n ∈ paymentAnalysis.nodes, n.IsSound := by decide
  have hback := (analysis_read_back_iff hsound (by decide) "1" "2" Time.zero).2
    ⟨by decide +kernel, by decide +kernel⟩
  ⟨hsound, hback.1, hback.2.1⟩

section Lost

def datedAnalysis (t : Time) : Analysis :=
  .node { name := "Dated", version := some ⟨1, "Active", t⟩ } []

def callChain : Nat → Analysis
  | 0 => .node { hasChildren := true } []
  | n + 1 => .node { hasChildren := true } [some (callChain n)]

theorem nodes_callChain {n : Nat} {a : Analysis} (h : a ∈ (callChain n).nodes) :
    a.findings = { hasChildren := true } := by
  induction n with
  | zero =>
    obtain rfl | ⟨b, hb, -⟩ := Analysis.mem_nodes_iff.1 h
    · rfl
    · cases hb
  | succ n ih =>
    obtain rfl | ⟨b, hb, ha⟩ := Analysis.mem_nodes_iff.1 h
    · rfl
    · obtain rfl : b = callChain n := by simpa [callChain, Analysis.children] using hb
      exact ih ha

theorem isSound_callChain (n : Nat) : ∀ a ∈ (callChain n).nodes, a.IsSound := by
  intro a ha
  refine ⟨?_, ?_⟩ <;> rw [nodes_callChain ha]
  · decide
  · simp

theorem faultBelow?_callChain {n depth : Nat} (h : Json.maxNesting < depth + 2 * n + 1) :
    (callChain n).faultBelow? depth = some "exceeded max depth" := by
  induction n generalizing depth with
  | zero =>
    have hopen : Json.tooDeep? depth (.obj []) = some "exceeded max depth" := if_pos h
    rw [callChain, Analysis.faultBelow?, hopen]
    rfl
  | succ n ih =>
    have hhead : (Json.obj ({ hasChildren := true } : Findings).head).nesting = (Json.obj []).nesting := by
      decide
    rw [callChain, Analysis.faultBelow?, Analysis.listFaultBelow?, ih (by omega), if_pos rfl]
    rw [Json.tooDeep?, Json.tooDeep?, Json.tooDeep?, hhead]
    split
    · rfl
    · split
      · rfl
      · rfl

/-- An analysis is refused if a zone is a day from UTC or calls lie too deep, and a zone of odd seconds is
read back as another. -/
theorem not_every_analysis_read_back :
    (∃ a : Analysis, (∀ n ∈ a.nodes, n.IsSound) ∧
      (∀ n ∈ a.nodes, ∀ v ∈ n.findings.version, v.lastModified.year = 1970) ∧
      a.unwritable? = some ("json: error calling MarshalJSON for type *time.Time: " ++
        "timezone hour outside of range [0,23]")) ∧
    (∃ a : Analysis, (∀ n ∈ a.nodes, n.IsSound) ∧ (∀ n ∈ a.nodes, n.findings.version = none) ∧
      a.unwritable? = some "exceeded max depth") ∧
    ∃ a : Analysis, (∀ n ∈ a.nodes, n.IsSound) ∧
      (∀ n ∈ a.nodes, ∀ v ∈ n.findings.version, v.lastModified.year = 1970) ∧
      a.unwritable? = none ∧ ∃ b, decode a.toJson.compact = .ok b ∧ b ≠ a := by
  refine ⟨⟨datedAnalysis { seconds := 0, offset := 86400 }, ?_⟩, ⟨callChain 5000, ?_⟩,
    datedAnalysis { seconds := 0, offset := 30 }, ?_⟩
  · decide
  · exact ⟨isSound_callChain 5000, fun a ha ↦ by rw [nodes_callChain ha],
      faultBelow?_callChain (by decide)⟩
  · refine ⟨by decide, by decide, by decide, _,
      decode_compact (by decide) (by decide), ?_⟩
    rw [ne_eq, Analysis.inMinutes_eq_self_iff]
    decide

end Lost

end Record

end FlowAudit
