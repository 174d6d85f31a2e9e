import FlowAudit.Proofs.Resolution.Totals

namespace FlowAudit

/-- The warning of a caller about a called flow of which there is no analysis. -/
def Outcome.exclusion? (name : String) : Outcome → Option String
  | .ok _ => none
  | .error e => some ("sub-workflow " ++ name ++ " excluded: " ++ e.message)

namespace Resolve

variable {src : Source} {opts : Resolver.Options} {called : String → Outcome} {md : Metadata}
  {version : Version} {depth : Int} {name : String} {o : Outcome} {a : Analysis}

def calledNames (md : Metadata) : List String :=
  ((Graph.build md).elements.filterMap Element.calledFlow?).eraseDups

def isCalledInLoop (opts : Resolver.Options) (md : Metadata) (name : String) : Bool :=
  let g := Graph.build md
  let s := Loops.propagate g opts.loops
  g.elements.any fun e ↦ e.calledFlow? == some name && (s.context? e.name).any (·.isInLoop)

/-- The analysis tells of the flow itself, and of its calls what came of each. -/
structure Accounts (opts : Resolver.Options) (md : Metadata) (version : Version)
    (called : String → Outcome) (a : Analysis) : Prop where
  own : ∃ depth, { a.proper with isCached := false } =
    (ownAnalysis opts md (some version) depth).proper
  distinct : (calledNames md).Nodup
  children : a.children = (calledNames md).filterMap fun name ↦ (called name).toOption.map some
  warnings : a.findings.warnings =
    (Graph.build md).warnings ++ (calledNames md).filterMap fun name ↦ (called name).exclusion? name
  inLoop : a.findings.subflowsInLoop = (calledNames md).filter (isCalledInLoop opts md)

mutual

/-- The analysis of a flow accounts for its calls, and so do those below it. -/
inductive Accounted (src : Source) (opts : Resolver.Options) :
    Metadata → Version → Analysis → Prop
  | node {md : Metadata} {version : Version} {a : Analysis} (called : String → Outcome)
      (h : Accounts opts md version called a)
      (hcalled : ∀ name ∈ calledNames md, Tells src opts name (called name)) :
      Accounted src opts md version a

/-- What can come of a call: the flow cannot be read, it lies too deep, or it is analyzed. -/
inductive Tells (src : Source) (opts : Resolver.Options) : String → Outcome → Prop
  | failed {name : String} {e : Failure} (h : readFlow src name = .error e) :
      Tells src opts name (.error e)
  | tooDeep (name : String) (depth : Int) : Tells src opts name (.ok (.depthExceeded name depth))
  | analyzed {name : String} {md : Metadata} {version : Version} {a : Analysis}
      (h : readFlow src name = .ok (md, version)) (ha : Accounted src opts md version a) :
      Tells src opts name (.ok a)

end

theorem callsOf_eq_map (opts : Resolver.Options) (md : Metadata) :
    callsOf opts md = (calledNames md).map fun name ↦ (name, isCalledInLoop opts md name) := by
  have hnames : (Single.analyze opts.loops md 0).calls.map Call.flow =
      (Graph.build md).elements.filterMap Element.calledFlow? := by
    simp [Single.analyze, Call.all, List.map_filterMap, Function.comp_def]
  have hloop (name : String) : (Single.analyze opts.loops md 0).calls.any
      (fun c ↦ c.flow == name && c.isInLoop) = isCalledInLoop opts md name := by
    rw [Single.analyze, Call.all, List.any_filterMap, isCalledInLoop]
    congr 1
    funext e
    cases e.calledFlow? <;> rfl
  have hall : (fun n : String ↦ !([] : List String).contains n) = fun _ ↦ true := rfl
  simp only [callsOf, Call.flows, foldl_distinct_eq_eraseDups, hnames, hloop, hall, List.nil_append,
    List.filter_true, calledNames]

theorem nodup_calledNames (opts : Resolver.Options) (md : Metadata) : (calledNames md).Nodup := by
  have h := nodup_callsOf opts md
  rwa [callsOf_eq_map, List.map_map, Function.comp_def, List.map_id'] at h

theorem warnings_takeIn (name : String) (isInLoop : Bool) (o : Outcome) (a : Analysis) :
    (takeIn name isInLoop o a).findings.warnings =
      a.findings.warnings ++ (o.exclusion? name).toList := by
  obtain ⟨f, children⟩ := a
  cases isInLoop <;> cases o with
  | error e => rfl
  | ok child => exact (List.append_nil _).symm

theorem subflowsInLoop_takeIn (name : String) (isInLoop : Bool) (o : Outcome) (a : Analysis) :
    (takeIn name isInLoop o a).findings.subflowsInLoop =
      a.findings.subflowsInLoop ++ (if isInLoop then some name else none).toList := by
  obtain ⟨f, children⟩ := a
  cases isInLoop <;> cases o
  · exact (List.append_nil _).symm
  · exact (List.append_nil _).symm
  · rfl
  · rfl

theorem proper_ownAnalysis_uncached (opts : Resolver.Options) (md : Metadata)
    (version : Option Version) (depth : Int) :
    { (ownAnalysis opts md version depth).proper with isCached := false } =
      (ownAnalysis opts md version depth).proper := by
  simp only [Analysis.proper, ownAnalysis, Analysis.findings, Single.analyze, Findings.ofMetrics]

theorem accounts_gather (opts : Resolver.Options) (called : String → Outcome) (md : Metadata)
    (version : Version) (depth : Int) :
    Accounts opts md version called (gather opts called md (some version) depth) where
  own := ⟨depth, by rw [proper_gather, proper_ownAnalysis_uncached]⟩
  distinct := nodup_calledNames opts md
  children := by
    rw [children_gather, callsOf_eq_map, List.filterMap_map, List.map_filterMap]
    rfl
  warnings := by
    rw [gather, foldl_filterMap_of_step (fun a ↦ a.findings.warnings)
      fun a call ↦ warnings_takeIn call.1 call.2 (called call.1) a]
    rw [callsOf_eq_map, List.filterMap_map]
    rfl
  inLoop := by
    rw [gather, foldl_filterMap_of_step (fun a ↦ a.findings.subflowsInLoop)
      fun a call ↦ subflowsInLoop_takeIn call.1 call.2 (called call.1) a]
    rw [callsOf_eq_map, List.filterMap_map, ← List.filterMap_eq_filter]
    rfl

theorem Accounts.served (h : Accounts opts md version called a) :
    Accounts opts md version called (a.mapFindings fun f ↦ { f with isCached := true }) := by
  obtain ⟨f, children⟩ := a
  exact ⟨h.own, h.distinct, h.children, h.warnings, h.inLoop⟩

theorem Accounted.served (h : Accounted src opts md version a) :
    Accounted src opts md version (a.mapFindings fun f ↦ { f with isCached := true }) := by
  cases h with
  | node called h hcalled => exact .node called h.served hcalled

theorem accounted_of_gatheredFrom {Q : String → Outcome → Prop}
    (hQ : ∀ name o, Q name o → Tells src opts name o)
    (h : GatheredFrom opts Q md (some version) depth a) : Accounted src opts md version a := by
  obtain ⟨called, hcalled, rfl⟩ := h
  refine .node called (accounts_gather opts called md version depth) fun name hname ↦ ?_
  refine hQ _ _ (hcalled (name, isCalledInLoop opts md name) ?_)
  rw [callsOf_eq_map]
  exact List.mem_map_of_mem hname

theorem Accounts.mem_children_iff (h : Accounts opts md version called a) {c : Analysis} :
    some c ∈ a.children ↔ ∃ name ∈ calledNames md, called name = .ok c := by
  rw [h.children, List.mem_filterMap]
  refine exists_congr fun name ↦ and_congr_right fun _ ↦ ?_
  cases called name <;> simp [Except.toOption]

mutual

/-- The analyses below one that accounts for its calls account for theirs, if they were made. -/
theorem Accounted.nodes {md : Metadata} {version : Version} {a : Analysis} :
    Accounted src opts md version a → ∀ n ∈ a.nodes, n.isDepthExceeded = false →
      ∃ md version, Accounted src opts md version n
  | .node called h hcalled => by
    intro n hn hmade
    obtain rfl | ⟨c, hc, hn⟩ := Analysis.mem_nodes_iff.mp hn
    · exact ⟨md, version, .node called h hcalled⟩
    · obtain ⟨name, hname, hok⟩ := h.mem_children_iff.mp hc
      exact (hcalled name hname).nodes c hok n hn hmade

theorem Tells.nodes {name : String} {o : Outcome} :
    Tells src opts name o → ∀ a, o = .ok a → ∀ n ∈ a.nodes, n.isDepthExceeded = false →
      ∃ md version, Accounted src opts md version n
  | .failed _ => by
    intro a heq
    cases heq
  | .tooDeep name depth => by
    intro a heq n hn hmade
    obtain rfl := Except.ok.inj heq
    obtain rfl := List.mem_singleton.mp (Analysis.nodes_depthExceeded name depth ▸ hn)
    rw [Analysis.isDepthExceeded_depthExceeded] at hmade
    cases hmade
  | .analyzed _ ha => by
    intro a heq
    obtain rfl := Except.ok.inj heq
    exact ha.nodes

end

/-- What can come of a call that does not lie too deep. -/
inductive Found (src : Source) (opts : Resolver.Options) (name : String) : Outcome → Prop
  | failed {e : Failure} (h : readFlow src name = .error e) : Found src opts name (.error e)
  | analyzed {md : Metadata} {version : Version} {a : Analysis}
      (h : readFlow src name = .ok (md, version)) (ha : Accounted src opts md version a) :
      Found src opts name (.ok a)

theorem Found.tells (h : Found src opts name o) : Tells src opts name o := by
  cases h with
  | failed h => exact .failed h
  | analyzed h ha => exact .analyzed h ha

theorem Found.served (h : Found src opts name o) : Found src opts name o.served := by
  cases h with
  | failed h => exact .failed h
  | analyzed h ha => exact .analyzed h ha.served

/-- What was found out may be kept, since nothing is entered for a call that lies too deep. -/
theorem answering_tells (src : Source) (opts : Resolver.Options) :
    Answering src opts (fun _ _ _ ↦ True) (Found src opts)
      (fun left _ name o ↦ Tells src opts name o ∧ (0 < left → Found src opts name o)) where
  limit depth name _ := ⟨.tooDeep name depth, fun h ↦ absurd h (Nat.lt_irrefl 0)⟩
  below _ _ _ _ _ _ _ _ _ := trivial
  made left depth name _ o hmade := by
    have hfound : Found src opts name o := by
      cases hmade with
      | failed hread => exact .failed hread
      | gathered hread ha =>
        exact .analyzed hread (accounted_of_gatheredFrom (fun _ _ h ↦ h.1) ha)
    exact ⟨hfound.tells, fun _ ↦ hfound⟩
  keep left _ _ _ _ h := h.2 (Nat.succ_pos left)
  serve _ _ _ _ _ h := ⟨h.served.tells, fun _ ↦ h.served⟩

theorem readFlow_eq_error_iff (src : Source) (name : String) :
    (∃ e, readFlow src name = .error e) ↔
      (∃ e, src.fetch name = .error e) ∨
        ∃ d, src.fetch name = .ok d ∧ ∃ e, Metadata.ofDefinition d = .error e := by
  rw [readFlow]
  cases src.fetch name with
  | error e => simp
  | ok d => cases hmd : Metadata.ofDefinition d <;> simp [hmd]

/-- Whatever a resolver was asked before, a request for a flow fails exactly if the flow cannot be
fetched or its definition cannot be read. In the analysis that is told otherwise, every flow that was
analyzed accounts for all flows that it calls: for each there is either an analysis below, or a
warning. -/
theorem calls_accounted_for (src : Source) (opts : Resolver.Options) (earlier : List Request)
    (root : String) :
    let answer := ((analyze src opts root).run (after src opts earlier)).1
    ((∃ e, answer = .error e) ↔ (∃ e, src.fetch root = .error e) ∨
      ∃ d, src.fetch root = .ok d ∧ ∃ e, Metadata.ofDefinition d = .error e) ∧
    ∀ a, answer = .ok a →
      (∃ md version, readFlow src root = .ok (md, version) ∧ Accounted src opts md version a) ∧
      ∀ n ∈ a.nodes, n.isDepthExceeded = false → ∃ md version, Accounted src opts md version n := by
  intro answer
  have h := answering_tells src opts
  have hreported := (h.gives_analyze root (fun _ _ _ _ _ ↦ trivial) _ (h.holds_after earlier)).1
  change Reported opts _ _ answer at hreported
  rw [← readFlow_eq_error_iff]
  clear_value answer
  cases hread : readFlow src root with
  | error e =>
    rw [hread] at hreported
    cases hreported with
    | failed _ e' => exact ⟨⟨fun _ ↦ ⟨e, rfl⟩, fun _ ↦ ⟨e', rfl⟩⟩, fun a heq ↦ by cases heq⟩
  | ok p =>
    rw [hread] at hreported
    cases hreported with
    | gathered ha =>
      have haccounted := accounted_of_gatheredFrom (fun _ _ h ↦ h.1) ha
      refine ⟨by simp, fun a heq ↦ ?_⟩
      obtain rfl := Except.ok.inj heq
      exact ⟨⟨_, _, rfl, haccounted⟩, haccounted.nodes⟩

-- Of the two flows that `C` calls there is one, and the warning about the other comes last.
example : (((analyze recursiveFlows { maxDepth := 4 } "C").run {}).1.toOption.map fun a ↦
    (a.called.map (·.name), a.findings.warnings)) =
      some (["C"], ["Subflow #1 has no name; registered as Unnamed",
        "Subflow #2 has no name; registered as Unnamed_2", "sub-workflow D excluded: " ++
          "flowscope: sub-workflow fetch failed: flowscope: flow not found: D"]) := by
  decide +kernel

end Resolve

end FlowAudit
