import FlowAudit.Proofs.Resolution.Answers
import Mathlib.Logic.Function.Iterate

namespace FlowAudit.Resolve

/-- The analysis of a flow as far as it has come, with the calls that are left. -/
structure Task where
  name : String
  depth : Int
  /-- Whether an entry waits for what comes of the flow. -/
  isKept : Bool
  analysis : Analysis
  waiting : List (String × Bool)

abbrev Suspended := Task × String × Bool

/-- What is done next. -/
inductive Control where
  /-- A request is taken up. -/
  | start (q : Request)
  /-- A flow is called at the depth. -/
  | ask (depth : Int) (name : String) (isInLoop : Bool)
  /-- A called flow is fetched, to be analyzed. -/
  | make (isKept : Bool) (depth : Int) (name : String)
  /-- The next call of a flow is followed. -/
  | work (t : Task)
  /-- What came of a flow is given back. -/
  | tell (o : Outcome)

def chainOf (s : List Suspended) : List String := (s.map (·.1.name)).reverse

def settle (isKept : Bool) (name : String) (o : Outcome) : Resolve Unit :=
  if isKept then modify (Resolver.finish name o) else pure ()

variable (src : Source) (opts : Resolver.Options)

def takeUp (isKept : Bool) (depth : Int) (name : String) (md : Metadata) (version : Version) :
    Resolve Task := do
  prefetch src opts (depth + 1) ((callsOf opts md).map (·.1))
  return { name := name, depth := depth, isKept := isKept, waiting := callsOf opts md
           analysis := ownAnalysis opts md (some version) depth }

def step : Control → List Suspended → Resolve (Control × List Suspended)
  | .start (.named root), s => do
    match ← fetch src root with
    | .error e => return (.tell (.error (.within ("fetch " ++ root) e)), s)
    | .ok d => return (.start (.given d), s)
  | .start (.given d), s => do
    match Metadata.ofDefinition d with
    | .error e => return (.tell (.error (.malformed e)), s)
    | .ok md => return (.work (← takeUp src opts false 0 md.name md d.version), s)
  | .start (.called depth name isInLoop), s => return (.ask depth name isInLoop, s)
  | .ask depth name isInLoop, s => do
    let attributes : List (String × Log.Value) :=
      [("flow", .text name), ("depth", .whole depth), ("in_loop", .flag isInLoop)]
    if opts.maxDepth ≤ depth then
      log .debug "recursion limit reached" [("flow", .text name), ("depth", .whole depth)]
      return (.tell (.ok (.depthExceeded name depth)), s)
    else if (chainOf s).contains name then
      log .debug "recursive sub-workflow reference" attributes
      return (.make false depth name, s)
    else
      match (← get).find? name with
      | some (some o) =>
        modify fun r ↦ { r with hits := r.hits + 1 }
        return (.tell o.served, s)
      | some none =>
        log .debug "sub-workflow in flight on a waiting resolution" attributes
        return (.make false depth name, s)
      | none =>
        modify (Resolver.enter name)
        log .debug "resolving sub-workflow" attributes
        return (.make true depth name, s)
  | .make isKept depth name, s => do
    let fail (e : Failure) := do
      settle isKept name (.error (.fetchFailed e))
      return (.tell (.error (.fetchFailed e)), s)
    match ← fetch src name with
    | .error e => fail e
    | .ok d =>
      match Metadata.ofDefinition d with
      | .error e => fail (.within name (.malformed e))
      | .ok md => return (.work (← takeUp src opts isKept depth name md d.version), s)
  | .work t, s => do
    match t.waiting with
    | [] =>
      settle t.isKept t.name (.ok t.analysis)
      return (.tell (.ok t.analysis), s)
    | call :: rest => return (.ask (t.depth + 1) call.1 call.2, ({ t with waiting := rest }, call) :: s)
  | .tell o, (t, call) :: s => do
    let a ← callOne (fun _ _ ↦ pure o) t.analysis call.1 call.2
    return (.work { t with analysis := a }, s)
  | .tell o, [] => return (.tell o, [])

structure Moment where
  control : Control
  /-- The analyses that wait for a call, the innermost first. -/
  suspended : List Suspended
  resolver : Resolver

namespace Moment

def initial (q : Request) (r : Resolver) : Moment := ⟨.start q, [], r⟩

def final (p : Outcome × Resolver) : Moment := ⟨.tell p.1, [], p.2⟩

def next (m : Moment) : Moment :=
  let p := (step src opts m.control m.suspended).run m.resolver
  ⟨p.1.1, p.1.2, p.2⟩

end Moment

def Reaches (m m' : Moment) : Prop := ∃ n, (Moment.next src opts)^[n] m = m'

variable {src opts} {c : Control} {s s' : List Suspended} {f : Suspended} {y : Resolve Outcome}
  {follow : Follow} {name : String} {depth : Int}

theorem Reaches.refl (m : Moment) : Reaches src opts m m := ⟨0, rfl⟩

theorem Reaches.head {m m' : Moment} (h : Reaches src opts (m.next src opts) m') :
    Reaches src opts m m' := by
  obtain ⟨n, hn⟩ := h
  exact ⟨n + 1, by rw [Function.iterate_succ_apply, hn]⟩

theorem Reaches.trans {m m' m'' : Moment} (h : Reaches src opts m m')
    (h' : Reaches src opts m' m'') : Reaches src opts m m'' := by
  obtain ⟨n, rfl⟩ := h
  obtain ⟨k, rfl⟩ := h'
  exact ⟨k + n, Function.iterate_add_apply _ k n m⟩

variable (src opts) in
/-- After what `x` does, the steps go on until they have done what `y` does, and tell its outcome to
those that wait. -/
def Leads (x : Resolve (Control × List Suspended)) (s : List Suspended) (y : Resolve Outcome) : Prop :=
  ∀ r, Reaches src opts ⟨(x.run r).1.1, (x.run r).1.2, (x.run r).2⟩
    ⟨.tell (y.run r).1, s, (y.run r).2⟩

namespace Leads

theorem tell (o : Outcome) : Leads src opts (pure (.tell o, s)) s (pure o) := fun _ ↦ .refl _

theorem bind {α : Type} {m : Resolve α} {x : α → Resolve (Control × List Suspended)}
    {y : α → Resolve Outcome} (h : ∀ a, Leads src opts (x a) s (y a)) :
    Leads src opts (m >>= x) s (m >>= y) :=
  fun r ↦ h (m.run r).1 (m.run r).2

theorem step (h : Leads src opts (step src opts c s') s y) : Leads src opts (pure (c, s')) s y :=
  fun r ↦ (h r).head

theorem call {z : Outcome → Resolve Outcome}
    (h : Leads src opts (pure (c, f :: s)) (f :: s) y)
    (h' : ∀ o, Leads src opts (Resolve.step src opts (.tell o) (f :: s)) s (z o)) :
    Leads src opts (pure (c, f :: s)) s (y >>= z) :=
  fun r ↦ (h r).trans (h' (y.run r).1 (y.run r).2).head

end Leads

theorem callOne_eq_bind (follow : Follow) (a : Analysis) (name : String) (isInLoop : Bool) :
    callOne follow a name isInLoop =
      follow name isInLoop >>= fun o ↦ callOne (fun _ _ ↦ pure o) a name isInLoop := by
  rfl

theorem chainOf_cons (t : Task) (call : String × Bool) (s : List Suspended) :
    chainOf ((t, call) :: s) = chainOf s ++ [t.name] := by
  simp [chainOf]

variable (src opts) in
def Follows (follow : Follow) (depth : Int) (name : String) (s : List Suspended) : Prop :=
  ∀ (t : Task) (call : String × Bool), t.name = name → t.depth = depth →
    Leads src opts (pure (.ask (depth + 1) call.1 call.2, (t, call) :: s)) ((t, call) :: s)
      (follow call.1 call.2)

theorem leads_work (hask : Follows src opts follow depth name s) (isKept : Bool) (a : Analysis)
    (calls : List (String × Bool)) :
    Leads src opts (pure (.work ⟨name, depth, isKept, a, calls⟩, s)) s (do
      let a ← calls.foldlM (fun a (name, isInLoop) ↦ callOne follow a name isInLoop) a
      settle isKept name (.ok a)
      return .ok a) := by
  induction calls generalizing a with
  | nil => exact .step (.bind fun _ ↦ .tell _)
  | cons call calls ih =>
    refine .step ?_
    simp only [List.foldlM_cons, bind_assoc]
    rw [callOne_eq_bind, bind_assoc]
    refine .call (hask _ call rfl rfl) fun o ↦ ?_
    exact .bind fun a ↦ ih a

theorem leads_make (hask : Follows src opts follow depth name s) (isKept : Bool) :
    Leads src opts (pure (.make isKept depth name, s)) s (do
      let o ← computeWith src opts follow name depth
      settle isKept name o
      return o) := by
  refine .step ?_
  simp only [computeWith, bind_assoc]
  refine .bind fun fetched ↦ ?_
  cases fetched with
  | error e => exact .bind fun _ ↦ .tell _
  | ok d =>
    cases hmd : Metadata.ofDefinition d with
    | error e =>
      simp only [hmd, pure_bind]
      exact .bind fun _ ↦ .tell _
    | ok md =>
      simp only [hmd, pure_bind, analyzeWith, takeUp, bind_assoc]
      exact .bind fun _ ↦ leads_work hask isKept _ _

theorem settle_false (name : String) (y : Resolve Outcome) :
    (do let o ← y; settle false name o; return o) = y := by
  simp [settle]

variable (src opts) in
theorem leads_ask (left : Nat) (depth : Int) (s : List Suspended) (name : String) (isInLoop : Bool)
    (hleft : left = ((opts.maxDepth : Int) - depth).toNat) :
    Leads src opts (pure (.ask depth name isInLoop, s)) s
      (resolve src opts left depth (chainOf s) name isInLoop) := by
  induction left generalizing depth s name isInLoop with
  | zero =>
    have hlimit : (opts.maxDepth : Int) ≤ depth := by omega
    refine .step ?_
    simp only [step, if_pos hlimit, resolve]
    exact .bind fun _ ↦ .tell _
  | succ left ih =>
    have hlimit : ¬(opts.maxDepth : Int) ≤ depth := by omega
    have hfollows : Follows src opts (resolve src opts left (depth + 1) (chainOf s ++ [name]))
        depth name s := by
      intro t call ht _
      have h := ih (depth + 1) ((t, call) :: s) call.1 call.2 (by omega)
      rwa [chainOf_cons, ht] at h
    have hmake := leads_make hfollows true
    have hbypass := leads_make hfollows false
    rw [settle_false] at hbypass
    refine .step ?_
    simp only [step, if_neg hlimit, resolve]
    by_cases hchain : (chainOf s).contains name = true
    · simp only [if_pos hchain]
      exact .bind fun _ ↦ hbypass
    · simp only [if_neg hchain]
      refine .bind fun r ↦ ?_
      cases r.find? name with
      | none => exact .bind fun _ ↦ .bind fun _ ↦ hmake
      | some e =>
        cases e with
        | none => exact .bind fun _ ↦ hbypass
        | some o => exact .bind fun _ ↦ .tell _

theorem leads_start (q : Request) :
    Leads src opts (pure (.start q, [])) [] (q.answer src opts) := by
  have hgiven (d : Definition) : Leads src opts (pure (.start (.given d), [])) []
      (analyzeDefinition src opts d) := by
    refine .step ?_
    simp only [step, analyzeDefinition]
    cases Metadata.ofDefinition d with
    | error e => exact .tell _
    | ok md =>
      have hfollows : Follows src opts (resolve src opts (opts.maxDepth - 1) 1 [md.name])
          0 md.name [] := by
        intro t call ht _
        have h := leads_ask src opts (opts.maxDepth - 1) 1 [(t, call)] call.1 call.2 (by omega)
        rwa [chainOf_cons, ht] at h
      have hwork := leads_work hfollows false (ownAnalysis opts md (some d.version) 0)
        (callsOf opts md)
      simp only [settle, Bool.false_eq_true, if_false, pure_bind] at hwork
      simp only [analyzeMetadata, analyzeWith, takeUp, bind_assoc, pure_bind]
      exact .bind fun _ ↦ hwork
  cases q with
  | named root =>
    refine .step (.bind fun fetched ↦ ?_)
    cases fetched with
    | error e => exact .tell _
    | ok d => exact hgiven d
  | given d => exact hgiven d
  | called depth name isInLoop => exact .step (leads_ask src opts _ depth [] name isInLoop rfl)

/-- The steps after a request come to an end, with its answer. -/
theorem reaches_answer (src : Source) (opts : Resolver.Options) (q : Request) (r : Resolver) :
    Reaches src opts (.initial q r) (.final ((q.answer src opts).run r)) :=
  leads_start q r

theorem iterate_final (p : Outcome × Resolver) (n : Nat) :
    (Moment.next src opts)^[n] (.final p) = .final p :=
  Function.iterate_fixed rfl n

/-- Once a request is answered, nothing more is done. -/
theorem ends_with_answer (src : Source) (opts : Resolver.Options) (q : Request) (r : Resolver) :
    ∃ n, ∀ k, n ≤ k →
      (Moment.next src opts)^[k] (.initial q r) = .final ((q.answer src opts).run r) := by
  obtain ⟨n, hn⟩ := reaches_answer src opts q r
  refine ⟨n, fun k hk ↦ ?_⟩
  obtain ⟨j, rfl⟩ := Nat.exists_eq_add_of_le' hk
  rw [Function.iterate_add_apply, hn, iterate_final]

end FlowAudit.Resolve
