import FlowAudit.Resolution.Resolver
import FlowAudit.Proofs.Runs

namespace FlowAudit

namespace Analysis

mutual

/-- The analysis without what depends on the call that it was made for: the depth, and whether there
was an earlier call. -/
def bare : Analysis → Analysis
  | node f children => node { f with depth := 0, isCached := false } (bareAll children)

def bareAll : List (Option Analysis) → List (Option Analysis)
  | [] => []
  | none :: rest => none :: bareAll rest
  | some a :: rest => some (bare a) :: bareAll rest

end

theorem bareAll_append (as bs : List (Option Analysis)) :
    bareAll (as ++ bs) = bareAll as ++ bareAll bs := by
  induction as with
  | nil => rfl
  | cons a as ih => cases a <;> simp only [List.cons_append, bareAll, ih]

def proper (a : Analysis) : Findings :=
  { a.findings with
    cumulativeComplexity := 0, cumulativeDmlCount := 0, cumulativeSoqlCount := 0
    subflowsInLoop := [], warnings := [] }

theorem proper_depth (a : Analysis) : a.proper.depth = a.findings.depth := rfl

theorem proper_isCached (a : Analysis) : a.proper.isCached = a.findings.isCached := rfl

theorem proper_reason (a : Analysis) : a.proper.reason = a.findings.reason := rfl

def nodes (a : Analysis) : List Analysis := a.visited fun _ ↦ true

theorem mem_visitedIn_iff {as : List (Option Analysis)} {n : Analysis} :
    n ∈ visitedIn (fun _ ↦ true) as ↔ ∃ a, some a ∈ as ∧ n ∈ a.nodes := by
  induction as with
  | nil => simp [visitedIn]
  | cons b as ih =>
    cases b with
    | none => simp [visitedIn, ih]
    | some b => simp [visitedIn, ih, nodes, or_and_right, exists_or]

theorem mem_nodes_iff {a n : Analysis} :
    n ∈ a.nodes ↔ n = a ∨ ∃ b, some b ∈ a.children ∧ n ∈ b.nodes := by
  cases a with
  | node f children =>
    rw [nodes, visited, if_pos rfl, List.mem_cons, mem_visitedIn_iff]
    rfl

theorem mem_nodes_self (a : Analysis) : a ∈ a.nodes := mem_nodes_iff.mpr (.inl rfl)

theorem mem_nodes_of_child {a b n : Analysis} (hb : some b ∈ a.children) (hn : n ∈ b.nodes) :
    n ∈ a.nodes :=
  mem_nodes_iff.mpr (.inr ⟨b, hb, hn⟩)

theorem nodes_depthExceeded (name : String) (depth : Int) :
    (depthExceeded name depth).nodes = [depthExceeded name depth] :=
  rfl

theorem isDepthExceeded_depthExceeded (name : String) (depth : Int) :
    (depthExceeded name depth).isDepthExceeded = true := by
  simp [isDepthExceeded, depthExceeded, findings]

end Analysis

def Outcome.bare (o : Outcome) : Outcome := o.map Analysis.bare

/-- No calls were left unfollowed because they lie too deep. -/
def Outcome.Complete (o : Outcome) : Prop :=
  ∀ a, o = .ok a → ∀ n ∈ a.nodes, ∀ name depth, n ≠ .depthExceeded name depth

def Outcome.isComplete : Outcome → Bool
  | .ok a => a.nodes.all fun n ↦ !n.isDepthExceeded
  | .error _ => true

theorem Outcome.complete_of_isComplete {o : Outcome} (h : o.isComplete = true) : o.Complete := by
  rintro a rfl n hn name depth rfl
  have hsentinel := List.all_eq_true.mp h _ hn
  simp [Analysis.isDepthExceeded_depthExceeded] at hsentinel

namespace Resolve

def takeIn (name : String) (isInLoop : Bool) (o : Outcome) (a : Analysis) : Analysis :=
  let a := if isInLoop then
      a.mapFindings fun f ↦ { f with subflowsInLoop := f.subflowsInLoop ++ [name] }
    else a
  match o with
  | .ok child => addCalled child a
  | .error e => a.mapFindings fun f ↦
      { f with warnings := f.warnings ++ ["sub-workflow " ++ name ++ " excluded: " ++ e.message] }

def ownAnalysis (opts : Resolver.Options) (md : Metadata) (version : Option Version) (depth : Int) :
    Analysis :=
  .node { (Single.analyze opts.loops md depth).findings with version := version } []

def callsOf (opts : Resolver.Options) (md : Metadata) : List (String × Bool) :=
  Call.flows (Single.analyze opts.loops md 0).calls

def gather (opts : Resolver.Options) (called : String → Outcome) (md : Metadata)
    (version : Option Version) (depth : Int) : Analysis :=
  (callsOf opts md).foldl (fun a call ↦ takeIn call.1 call.2 (called call.1) a)
    (ownAnalysis opts md version depth)

def readFlow (src : Source) (name : String) : Except Failure (Metadata × Version) :=
  match src.fetch name with
  | .error e => .error (.fetchFailed e)
  | .ok d =>
    match Metadata.ofDefinition d with
    | .error e => .error (.fetchFailed (.within name (.malformed e)))
    | .ok md => .ok (md, d.version)

/-- The analysis of a called flow, made anew for every call. `left` is the number of calls that may
be followed from here. -/
def plain (src : Source) (opts : Resolver.Options) : (left : Nat) → (depth : Int) → String → Outcome
  | 0, depth, name => .ok (.depthExceeded name depth)
  | left + 1, depth, name =>
    match readFlow src name with
    | .error e => .error e
    | .ok (md, version) =>
      .ok (gather opts (plain src opts left (depth + 1)) md (some version) depth)

variable {src : Source} {opts : Resolver.Options} {called called' : String → Outcome}
  {md : Metadata} {version : Option Version} {depth depth' : Int} {left left' : Nat} {name : String}

/-- What depends on the call does not enter the analysis of the caller. -/
theorem bare_takeIn (name : String) (isInLoop : Bool) (o : Outcome) (a : Analysis) :
    (takeIn name isInLoop o a).bare = takeIn name isInLoop o.bare a.bare := by
  obtain ⟨f, children⟩ := a
  cases isInLoop <;> cases o with
  | error e => rfl
  | ok child =>
    obtain ⟨f', children'⟩ := child
    simp only [takeIn, Outcome.bare, Except.map, addCalled, Analysis.mapFindings, Analysis.bare,
      Analysis.bareAll_append, Analysis.bareAll, Analysis.findings, if_true, if_false,
      Bool.false_eq_true]

theorem bare_foldl_takeIn (calls : List (String × Bool)) (a : Analysis) :
    (calls.foldl (fun a call ↦ takeIn call.1 call.2 (called call.1) a) a).bare =
      calls.foldl (fun a call ↦ takeIn call.1 call.2 (called call.1).bare a) a.bare := by
  induction calls generalizing a with
  | nil => rfl
  | cons call calls ih => rw [List.foldl_cons, List.foldl_cons, ih, bare_takeIn]

theorem bare_gather_congr
    (hcalled : ∀ call ∈ callsOf opts md, (called call.1).bare = (called' call.1).bare)
    (hown : (ownAnalysis opts md version depth).bare = (ownAnalysis opts md version depth').bare) :
    (gather opts called md version depth).bare = (gather opts called' md version depth').bare := by
  rw [gather, gather, bare_foldl_takeIn, bare_foldl_takeIn, hown]
  apply List.foldl_ext
  intro a call hcall
  rw [hcalled call hcall]

/-- Below the flow that was asked for, the weights are the same at every depth. -/
theorem bare_ownAnalysis (h : 0 < depth) (h' : 0 < depth') :
    (ownAnalysis opts md version depth).bare = (ownAnalysis opts md version depth').bare := by
  have hweights : Weights.atDepth depth = Weights.atDepth depth' := by
    rw [Weights.atDepth, Weights.atDepth, if_pos h, if_pos h']
  simp only [ownAnalysis, Analysis.bare, Single.analyze, Findings.ofMetrics, Metrics.compute,
    hweights]

theorem proper_takeIn (name : String) (isInLoop : Bool) (o : Outcome) (a : Analysis) :
    (takeIn name isInLoop o a).proper = a.proper := by
  obtain ⟨f, children⟩ := a
  cases isInLoop <;> cases o <;> rfl

theorem proper_gather (opts : Resolver.Options) (called : String → Outcome) (md : Metadata)
    (version : Option Version) (depth : Int) :
    (gather opts called md version depth).proper = (ownAnalysis opts md version depth).proper :=
  List.foldlRecOn (callsOf opts md) _
    (motive := fun a : Analysis ↦ a.proper = (ownAnalysis opts md version depth).proper) rfl
    fun a ha call _ ↦ (proper_takeIn call.1 call.2 (called call.1) a).trans ha

theorem children_takeIn (name : String) (isInLoop : Bool) (o : Outcome) (a : Analysis) :
    (takeIn name isInLoop o a).children = a.children ++ o.toOption.toList.map some := by
  obtain ⟨f, children⟩ := a
  cases isInLoop <;> cases o with
  | error e => exact (List.append_nil _).symm
  | ok child => rfl

theorem children_foldl_takeIn (calls : List (String × Bool)) (a : Analysis) :
    (calls.foldl (fun a call ↦ takeIn call.1 call.2 (called call.1) a) a).children =
      a.children ++ (calls.filterMap fun call ↦ (called call.1).toOption).map some := by
  rw [List.map_filterMap]
  refine foldl_filterMap_of_step Analysis.children (fun a call ↦ ?_) calls a
  rw [children_takeIn, Option.toList_map]

/-- The flows called that did not fail are below the flow, in the order of the calls. -/
theorem children_gather (opts : Resolver.Options) (called : String → Outcome) (md : Metadata)
    (version : Option Version) (depth : Int) :
    (gather opts called md version depth).children =
      ((callsOf opts md).filterMap fun call ↦ (called call.1).toOption).map some :=
  children_foldl_takeIn (callsOf opts md) (ownAnalysis opts md version depth)

theorem mem_children_gather {b : Analysis} :
    some b ∈ (gather opts called md version depth).children ↔
      ∃ call ∈ callsOf opts md, called call.1 = .ok b := by
  simp only [children_gather, List.mem_map, Option.some.injEq, exists_eq_right, List.mem_filterMap]
  refine exists_congr fun call ↦ and_congr_right fun _ ↦ ?_
  cases called call.1 <;> simp [Except.toOption]

theorem not_complete_depthExceeded (name : String) (depth : Int) :
    ¬Outcome.Complete (.ok (.depthExceeded name depth)) :=
  fun h ↦ h _ rfl _ (Analysis.mem_nodes_self _) name depth rfl

/-- If no calls were left unfollowed, then none below. -/
theorem complete_called {call : String × Bool} (hcall : call ∈ callsOf opts md)
    (h : Outcome.Complete (.ok (gather opts called md version depth))) :
    (called call.1).Complete := by
  intro child hchild n hn
  exact h _ rfl n (Analysis.mem_nodes_of_child (mem_children_gather.mpr ⟨call, hcall, hchild⟩) hn)

/-- Whatever the depth of a call, the same is found out about the called flow, unless calls were
left unfollowed. -/
theorem bare_plain (h : 0 < depth) (h' : 0 < depth')
    (hc : (plain src opts left depth name).Complete)
    (hc' : (plain src opts left' depth' name).Complete) :
    (plain src opts left depth name).bare = (plain src opts left' depth' name).bare := by
  induction left generalizing left' depth depth' name with
  | zero => exact absurd hc (not_complete_depthExceeded name depth)
  | succ left ih =>
    cases left' with
    | zero => exact absurd hc' (not_complete_depthExceeded name depth')
    | succ left' =>
      simp only [plain] at hc hc' ⊢
      cases hread : readFlow src name with
      | error e => rfl
      | ok p =>
        simp only [hread] at hc hc' ⊢
        refine congrArg Except.ok (bare_gather_congr (fun call hcall ↦ ?_) (bare_ownAnalysis h h'))
        exact ih (by omega) (by omega) (complete_called hcall hc) (complete_called hcall hc')

end Resolve

end FlowAudit
