import FlowAudit.Proofs.Graph.Reordering
import FlowAudit.Proofs.Resolution.Totals

namespace FlowAudit

namespace Outcome

def total (m : Measure) : Outcome → Int
  | .ok a => m.total a
  | .error _ => 0

theorem sum_total (m : Measure) (o : Outcome) :
    (o.toOption.toList.map (m.total ·)).sum = o.total m := by
  cases o with
  | error e => rfl
  | ok a => exact List.sum_singleton

theorem total_served (m : Measure) (o : Outcome) : o.served.total m = o.total m := by
  cases o with
  | error e => rfl
  | ok a => cases a; cases m <;> rfl

theorem isComplete_served (o : Outcome) : o.served.isComplete = o.isComplete := by
  cases o with
  | error e => rfl
  | ok a => cases a; rfl

theorem isComplete_ok_iff {a : Analysis} :
    isComplete (.ok a) = true ↔ ∀ n ∈ a.nodes, n.isDepthExceeded = false := by
  simp [isComplete]

end Outcome

namespace Resolve

variable {src src' : Source} {opts : Resolver.Options} {called called' : String → Outcome}
  {md md' : Metadata} {version : Option Version} {depth depth' : Int} {name : String} {m : Measure}

theorem total_foldl_takeIn (calls : List (String × Bool)) {a : Analysis} {n : Int} (h : m.total a = wrap64 n) :
    m.total (calls.foldl (fun a call ↦ takeIn call.1 call.2 (called call.1) a) a) =
      wrap64 (n + (calls.map fun call ↦ (called call.1).total m).sum) := by
  induction calls generalizing a n with
  | nil => exact h.trans (congrArg wrap64 (add_zero n).symm)
  | cons call calls ih =>
    rw [List.foldl_cons, ih (total_takeIn call.1 call.2 (called call.1) h), Outcome.sum_total, List.map_cons,
      List.sum_cons, add_assoc]

def ownCost (opts : Resolver.Options) (md : Metadata) (depth : Int) (m : Measure) : Int :=
  wrap64 (m.count (ownMetrics opts md depth))

theorem own_bare (m : Measure) (a : Analysis) : m.own a.bare = m.own a := by
  cases a
  cases m <;> rfl

theorem ownCost_of_pos (h : 0 < depth) : ownCost opts md depth m = ownCost opts md 1 m := by
  have hown (depth : Int) : ownCost opts md depth m = m.own (ownAnalysis opts md none depth) :=
    (own_ownAnalysis m).symm
  rw [hown, hown, ← own_bare, bare_ownAnalysis h Int.one_pos, own_bare]

theorem total_gather (m : Measure) : m.total (gather opts called md version depth) =
    wrap64 (ownCost opts md depth m +
      (((callsOf opts md).map (·.1)).map fun name ↦ (called name).total m).sum) := by
  have hown : m.total (ownAnalysis opts md version depth) = wrap64 (ownCost opts md depth m) := by
    rw [total_ownAnalysis, ownCost, wrap64_wrap64]
  rw [gather, total_foldl_takeIn _ hown, List.map_map]
  rfl

theorem isComplete_called {call : String × Bool} (hcall : call ∈ callsOf opts md)
    (h : Outcome.isComplete (.ok (gather opts called md version depth)) = true) :
    (called call.1).isComplete = true := by
  cases hcalled : called call.1 with
  | error e => rfl
  | ok b =>
    rw [Outcome.isComplete_ok_iff] at h ⊢
    intro n hn
    exact h n (Analysis.mem_nodes_of_child (mem_children_gather.mpr ⟨call, hcall, hcalled⟩) hn)

/-- The totals of a called flow whose calls can all be followed. -/
inductive Costs (src : Source) (opts : Resolver.Options) : String → (Measure → Int) → Prop
  | failed {name : String} {e : Failure} (h : readFlow src name = .error e) :
      Costs src opts name fun _ ↦ 0
  | read {name : String} {md : Metadata} {version : Version} (called : String → Measure → Int)
      (h : readFlow src name = .ok (md, version))
      (hcalled : ∀ call ∈ callsOf opts md, Costs src opts call.1 (called call.1)) :
      Costs src opts name fun m ↦
        wrap64 (ownCost opts md 1 m + (((callsOf opts md).map (·.1)).map (called · m)).sum)

/-- Unless it stands for calls that were not followed, the outcome tells the totals of the flow. -/
def Honest (src : Source) (opts : Resolver.Options) (name : String) (o : Outcome) : Prop :=
  o.isComplete = true → Costs src opts name (o.total ·)

theorem answering_honest (src : Source) (opts : Resolver.Options) :
    Answering src opts (fun _ depth _ ↦ 0 < depth) (Honest src opts)
      (fun _ _ ↦ Honest src opts) where
  limit depth name _ hc :=
    absurd (Outcome.complete_of_isComplete hc) (not_complete_depthExceeded name depth)
  below left depth name h _ _ _ _ _ := by omega
  made left depth name hdepth o hmade hc := by
    cases hmade with
    | failed hread => exact .failed hread
    | gathered hread ha =>
      obtain ⟨called, hcalled, rfl⟩ := ha
      have hcosts := Costs.read (fun name m ↦ (called name).total m) hread fun call hcall ↦
        hcalled call hcall (isComplete_called hcall hc)
      -- Below the flow that was asked for, all depths weigh alike.
      simpa only [Outcome.total, total_gather, ownCost_of_pos hdepth] using hcosts
  keep _ _ _ _ _ h := h
  serve left depth name _ o h hc := by
    rw [Outcome.isComplete_served] at hc
    simpa only [Outcome.total_served] using h hc

theorem mem_callsOf_names : name ∈ (callsOf opts md).map (·.1) ↔
    ∃ e ∈ (Graph.build md).elements, e.calledFlow? = some name := by
  rw [callsOf, Call.flows, List.map_map]
  simp only [Function.comp_def, List.map_id', mem_foldl_distinct, List.not_mem_nil, false_or]
  simp [Single.analyze, Call.all]

/-- By themselves the flows cost the same, and they call the same flows. -/
structure Counterpart (opts : Resolver.Options) (md md' : Metadata) : Prop where
  own : ∀ depth m, ownCost opts md depth m = ownCost opts md' depth m
  calls : ((callsOf opts md).map (·.1)).Perm ((callsOf opts md').map (·.1))

theorem Counterpart.refl (opts : Resolver.Options) (md : Metadata) : Counterpart opts md md :=
  ⟨fun _ _ ↦ rfl, .refl _⟩

theorem Counterpart.of_reordered (h : md.Reordered md')
    (hcalls : Metadata.CallsByName (md.steps .subflow)) : Counterpart opts md md' := by
  refine ⟨fun depth m ↦ ?_, ?_⟩
  · have hcount := h.count_eq hcalls
    have hformulas : md.formulas = md'.formulas := by rw [h.frame]
    have hqueries : Metrics.impliedQueries md = Metrics.impliedQueries md' := by
      rw [h.frame]
      rfl
    rw [ownCost, ownCost]
    cases m <;> simp only [Measure.count, ownMetrics, Metrics.compute, hcount, hformulas, hqueries]
  · refine (List.perm_ext_iff_of_nodup (nodup_callsOf opts md) (nodup_callsOf opts md')).mpr ?_
    intro name
    rw [mem_callsOf_names, mem_callsOf_names, h.exists_call_iff hcalls]

theorem Counterpart.exists_call (h : Counterpart opts md md') {call : String × Bool}
    (hcall : call ∈ callsOf opts md) : ∃ c ∈ callsOf opts md', c.1 = call.1 :=
  List.mem_map.mp (h.calls.mem_iff.mp (List.mem_map_of_mem hcall))

theorem Counterpart.sum_eq (h : Counterpart opts md md') {f f' : String → Int}
    (hf : ∀ call ∈ callsOf opts md, f call.1 = f' call.1) :
    (((callsOf opts md).map (·.1)).map f).sum = (((callsOf opts md').map (·.1)).map f').sum := by
  rw [← (h.calls.map f').sum_eq, List.map_map, List.map_map]
  exact congrArg List.sum (List.map_congr_left hf)

/-- Neither flow has a canonical form, or they are counterparts. -/
inductive Matches (opts : Resolver.Options) :
    Except Failure (Metadata × Version) → Except Failure (Metadata × Version) → Prop
  | failed (e e' : Failure) : Matches opts (.error e) (.error e')
  | read {md md' : Metadata} (version version' : Version) (h : Counterpart opts md md') :
      Matches opts (.ok (md, version)) (.ok (md', version'))

theorem Costs.eq (hsrc : ∀ name, Matches opts (readFlow src name) (readFlow src' name))
    {cost cost' : Measure → Int} (h : Costs src opts name cost) (h' : Costs src' opts name cost') :
    cost = cost' := by
  -- Both derivations read the same flow at each step, so the second one follows the first.
  induction h generalizing cost' with
  | @failed name e hread =>
    have hmatches := hsrc name
    cases h' with
    | failed => rfl
    | read called' hread' hcalled' =>
      rw [hread, hread'] at hmatches
      cases hmatches
  | @read name md version called hread hcalled ih =>
    have hmatches := hsrc name
    cases h' with
    | failed hread' =>
      rw [hread, hread'] at hmatches
      cases hmatches
    | read called' hread' hcalled' =>
      rw [hread, hread'] at hmatches
      cases hmatches with
      | read _ _ hcounter =>
        funext m
        rw [hcounter.own, hcounter.sum_eq fun call hcall ↦ ?_]
        obtain ⟨c, hc, hname⟩ := hcounter.exists_call hcall
        exact congrFun (ih call hcall (hname ▸ hcalled' c hc)) m

/-- A new resolver gathers the totals of a flow from those of the flows that it calls. -/
theorem analyze_gathered (opts : Resolver.Options) {root : String} {version : Version}
    (h : readFlow src root = .ok (md, version)) :
    ∃ a, ((analyze src opts root).run {}).1 = .ok a ∧
      GatheredFrom opts (Honest src opts) md (some version) 0 a := by
  have hanswer := (answering_honest src opts).gives_analyze root (fun _ _ _ _ _ ↦ by decide) {}
    (holds_empty src _)
  rw [h] at hanswer
  have hreported := hanswer.1
  generalize ((analyze src opts root).run {}).1 = o at hreported
  cases hreported with
  | gathered ha => exact ⟨_, rfl, ha⟩

theorem total_eq_of_matches (hsrc : ∀ name, Matches opts (readFlow src name) (readFlow src' name))
    (hmd : Counterpart opts md md') {version' : Option Version} {a a' : Analysis}
    (ha : GatheredFrom opts (Honest src opts) md version 0 a)
    (ha' : GatheredFrom opts (Honest src' opts) md' version' 0 a')
    (hc : ∀ n ∈ a.nodes, n.isDepthExceeded = false)
    (hc' : ∀ n ∈ a'.nodes, n.isDepthExceeded = false) (m : Measure) : m.total a = m.total a' := by
  obtain ⟨called, hcalled, rfl⟩ := ha
  obtain ⟨called', hcalled', rfl⟩ := ha'
  rw [← Outcome.isComplete_ok_iff] at hc hc'
  rw [total_gather, total_gather, hmd.own, hmd.sum_eq fun call hcall ↦ ?_]
  obtain ⟨c, hmem, hname⟩ := hmd.exists_call hcall
  have hcost := hcalled call hcall (isComplete_called hcall hc)
  have hcost' := hcalled' c hmem (isComplete_called hmem hc')
  rw [hname] at hcost'
  exact congrFun (hcost.eq hsrc hcost') m

end Resolve

def Source.define (src : Source) (name : String) (d : Definition) : Source :=
  { src with fetch := fun n ↦ if n = name then .ok d else src.fetch n }

namespace Definition

/-- The second definition is the first one with the steps that call flows in another order. -/
def Reordered (d d' : Definition) : Prop :=
  ∃ md md', Metadata.ofDefinition d = .ok md ∧ Metadata.ofDefinition d' = .ok md' ∧
    md.Reordered md'

def CallsByName (d : Definition) : Prop :=
  ∀ md, Metadata.ofDefinition d = .ok md → Metadata.CallsByName (md.steps .subflow)

instance (d d' : Definition) : Decidable (d.Reordered d') :=
  match h : Metadata.ofDefinition d, h' : Metadata.ofDefinition d' with
  | .ok md, .ok md' => decidable_of_iff (md.Reordered md') (by simp [Reordered, h, h'])
  | .ok _, .error _ => isFalse (by simp [Reordered, h'])
  | .error _, _ => isFalse (by simp [Reordered, h])

instance (d : Definition) : Decidable d.CallsByName :=
  match h : Metadata.ofDefinition d with
  | .ok md => decidable_of_iff (Metadata.CallsByName (md.steps .subflow)) (by simp [CallsByName, h])
  | .error _ => isTrue (by simp [CallsByName, h])

end Definition

namespace Resolve

variable {src : Source} {root name : String} {d d' : Definition} {md : Metadata}

theorem readFlow_define_self (src : Source) (root : String) (h : Metadata.ofDefinition d = .ok md) :
    readFlow (src.define root d) root = .ok (md, d.version) := by
  simp only [readFlow, Source.define, if_true, h]

theorem readFlow_define_of_ne (h : name ≠ root) :
    readFlow (src.define root d) name = readFlow src name := by
  simp only [readFlow, Source.define, if_neg h]

theorem matches_refl (opts : Resolver.Options) (x : Except Failure (Metadata × Version)) :
    Matches opts x x := by
  cases x with
  | error e => exact .failed e e
  | ok p => exact .read p.2 p.2 (.refl opts p.1)

/-- If the calls of the flow that was asked for are put in another order, and none of its calls lie
too deep either way, its totals are the same. -/
theorem totals_eq_of_reordered (src : Source) (opts : Resolver.Options) (root : String)
    (h : d.Reordered d') (hcalls : d.CallsByName) :
    ∃ a a', ((analyze (src.define root d) opts root).run {}).1 = .ok a ∧
      ((analyze (src.define root d') opts root).run {}).1 = .ok a' ∧
      ((∀ n ∈ a.nodes, n.isDepthExceeded = false) → (∀ n ∈ a'.nodes, n.isDepthExceeded = false) →
        ∀ m : Measure, m.total a = m.total a') := by
  obtain ⟨md, md', hd, hd', hmd⟩ := h
  have hcounter : Counterpart opts md md' := .of_reordered hmd (hcalls md hd)
  have hroot := readFlow_define_self src root hd
  have hroot' := readFlow_define_self src root hd'
  obtain ⟨a, hrun, ha⟩ := analyze_gathered opts hroot
  obtain ⟨a', hrun', ha'⟩ := analyze_gathered opts hroot'
  refine ⟨a, a', hrun, hrun', total_eq_of_matches (fun name ↦ ?_) hcounter ha ha'⟩
  by_cases hname : name = root
  · rw [hname, hroot, hroot']
    exact .read _ _ hcounter
  · rw [readFlow_define_of_ne hname, readFlow_define_of_ne hname]
    exact matches_refl opts _

def namedCallsFlow (name : String) (calls : List (String × String)) : Definition :=
  let step (call : String × String) :=
    Text.braces ("\"name\":\"" ++ call.1 ++ "\",\"flowName\":\"" ++ call.2 ++ "\"")
  let text := Text.braces ("\"subflows\":[" ++ ",".intercalate (calls.map step) ++ "]")
  { name := name, format := "json", content := Text.Utf8.encode text.toList }

def savingFlow (name : String) : Definition :=
  let text := Text.braces ("\"recordCreates\":[" ++ Text.braces "\"name\":\"Save\"" ++ "]")
  { name := name, format := "json", content := Text.Utf8.encode text.toList }

def chainedFlows : Source :=
  (Memory.ofList [namedCallsFlow "B" [("Go", "C")], namedCallsFlow "C" [("Go", "D")],
    savingFlow "D"]).source none

def answerFor (opts : Resolver.Options) (calls : List (String × String)) : Outcome :=
  ((analyze (chainedFlows.define "A" (namedCallsFlow "A" calls)) opts "A").run {}).1

/-- The flow `C` is called by `A` and by `B`, and analyzed at the depth of the first of the calls. -/
theorem deep_call_totals_eq :
    (namedCallsFlow "A" [("Far", "B"), ("Near", "C")]).Reordered
        (namedCallsFlow "A" [("Near", "C"), ("Far", "B")]) ∧
      (namedCallsFlow "A" [("Far", "B"), ("Near", "C")]).CallsByName ∧
      ∃ a a', answerFor {} [("Far", "B"), ("Near", "C")] = .ok a ∧
        answerFor {} [("Near", "C"), ("Far", "B")] = .ok a' ∧
        (∀ n ∈ a.nodes, n.isDepthExceeded = false) ∧
        (∀ n ∈ a'.nodes, n.isDepthExceeded = false) ∧ ∀ m : Measure, m.total a = m.total a' := by
  have hreordered : (namedCallsFlow "A" [("Far", "B"), ("Near", "C")]).Reordered
      (namedCallsFlow "A" [("Near", "C"), ("Far", "B")]) := by decide +kernel
  have hcalls : (namedCallsFlow "A" [("Far", "B"), ("Near", "C")]).CallsByName := by decide +kernel
  have hc : (answerFor {} [("Far", "B"), ("Near", "C")]).isComplete = true := by decide +kernel
  have hc' : (answerFor {} [("Near", "C"), ("Far", "B")]).isComplete = true := by decide +kernel
  obtain ⟨a, a', ha, ha', htotals⟩ :=
    totals_eq_of_reordered chainedFlows {} "A" hreordered hcalls
  rw [answerFor, ha, Outcome.isComplete_ok_iff] at hc
  rw [answerFor, ha', Outcome.isComplete_ok_iff] at hc'
  exact ⟨hreordered, hcalls, a, a', ha, ha', hc, hc', htotals hc hc'⟩

/-- If `B` is called first, the call of `D` lies too deep when `C` is analyzed, and is left out where
`C` is called by `A`, too. And of two steps with one name only the first is followed. -/
theorem totals_depend_on_order :
    ((namedCallsFlow "A" [("Far", "B"), ("Near", "C")]).Reordered
        (namedCallsFlow "A" [("Near", "C"), ("Far", "B")]) ∧
      (namedCallsFlow "A" [("Far", "B"), ("Near", "C")]).CallsByName ∧
      (answerFor { maxDepth := 3 } [("Far", "B"), ("Near", "C")]).total .complexity = 17 ∧
      (answerFor { maxDepth := 3 } [("Near", "C"), ("Far", "B")]).total .complexity = 23) ∧
    (namedCallsFlow "A" [("Go", "B"), ("Go", "C")]).Reordered
        (namedCallsFlow "A" [("Go", "C"), ("Go", "B")]) ∧
      (answerFor {} [("Go", "B"), ("Go", "C")]).isComplete = true ∧
      (answerFor {} [("Go", "C"), ("Go", "B")]).isComplete = true ∧
      (answerFor {} [("Go", "B"), ("Go", "C")]).total .complexity = 14 ∧
      (answerFor {} [("Go", "C"), ("Go", "B")]).total .complexity = 10 := by
  decide +kernel

end Resolve

end FlowAudit
