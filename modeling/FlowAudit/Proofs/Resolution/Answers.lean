import FlowAudit.Proofs.Resolution.Ensures
import FlowAudit.Proofs.Resolution.Plain
import FlowAudit.Proofs.Runs

namespace FlowAudit

/-- An outcome that was kept, as it is given to a later call. -/
def Outcome.served (o : Outcome) : Outcome :=
  o.map (·.mapFindings fun f ↦ { f with isCached := true })

namespace Resolve

variable {src : Source} {opts : Resolver.Options} {follow : Follow} {md : Metadata}
  {version : Option Version} {depth : Int} {left : Nat} {name : String} {o : Outcome}
  {Kept Q : String → Outcome → Prop}

theorem nodup_callsOf (opts : Resolver.Options) (md : Metadata) :
    ((callsOf opts md).map (·.1)).Nodup := by
  have h := nodup_foldl_distinct Call.flow (Single.analyze opts.loops md 0).calls List.nodup_nil
  simpa only [callsOf, Call.flows, List.map_map, Function.comp_def, List.map_id'] using h

/-- The resolver has fetched what the source holds, and what it keeps has the property. -/
structure Holds (src : Source) (Kept : String → Outcome → Prop) (r : Resolver) : Prop where
  fetched : ∀ p ∈ r.fetched, p.2 = src.fetch p.1
  kept : ∀ name o, (name, some o) ∈ r.entries → Kept name o

theorem holds_empty (src : Source) (Kept : String → Outcome → Prop) : Holds src Kept {} :=
  ⟨fun _ h ↦ absurd h List.not_mem_nil, fun _ _ h ↦ absurd h List.not_mem_nil⟩

namespace Holds

variable {r : Resolver}

theorem enter (h : Holds src Kept r) : Holds src Kept (r.enter name) := by
  refine ⟨h.fetched, fun n o hmem ↦ ?_⟩
  obtain heq | hmem := List.mem_cons.mp hmem
  · cases heq
  · exact h.kept n o hmem

theorem finish (h : Holds src Kept r) (ho : Kept name o) : Holds src Kept (r.finish name o) := by
  refine ⟨h.fetched, fun n o' hmem ↦ ?_⟩
  obtain ⟨⟨m, e⟩, he, heq⟩ := List.mem_map.mp hmem
  by_cases hm : m = name
  · simp only [hm, beq_self_eq_true, if_true, Prod.mk.injEq, Option.some.injEq] at heq
    obtain ⟨rfl, rfl⟩ := heq
    exact ho
  · have hb : (m == name) = false := by simpa using hm
    simp only [hb, Bool.false_eq_true, if_false, Prod.mk.injEq] at heq
    obtain ⟨rfl, rfl⟩ := heq
    exact h.kept m o' he

theorem find? (h : Holds src Kept r) (hf : r.find? name = some (some o)) : Kept name o := by
  obtain ⟨⟨n, e⟩, hfind, rfl⟩ := Option.map_eq_some_iff.mp hf
  have hn : n = name := by simpa using List.find?_some hfind
  exact hn ▸ h.kept n o (List.mem_of_find?_eq_some hfind)

theorem log (level : Log.Level) (message : String) (attributes : List (String × Log.Value)) :
    Ensures (Holds src Kept) (Resolve.log level message attributes) fun _ ↦ Holds src Kept :=
  Ensures.modify fun _ hr ↦ ⟨hr.fetched, hr.kept⟩

theorem askSource (name : String) :
    Ensures (Holds src Kept) (Resolve.askSource src name) fun d r ↦
      d = src.fetch name ∧ Holds src Kept r :=
  Ensures.bind (Q := fun _ ↦ Holds src Kept) (Ensures.modify fun _ hr ↦ ⟨hr.fetched, hr.kept⟩)
    fun _ ↦ Ensures.pure fun _ hr ↦ ⟨rfl, hr⟩

theorem fetch (name : String) :
    Ensures (Holds src Kept) (Resolve.fetch src name) fun d r ↦
      d = src.fetch name ∧ Holds src Kept r := by
  refine Ensures.get_bind fun r hr ↦ ?_
  cases hf : r.fetched.find? (·.1 == name) with
  | some p =>
    obtain ⟨n, d⟩ := p
    have hn : n = name := by simpa using List.find?_some hf
    have hd := hr.fetched _ (List.mem_of_find?_eq_some hf)
    exact Ensures.pure fun r' hr' ↦ ⟨hn ▸ hd, hr' ▸ hr⟩
  | none =>
    refine Ensures.bind ((askSource name).weaken (fun _ hr' ↦ hr' ▸ hr) fun _ _ h ↦ h) fun d ↦ ?_
    refine Ensures.bind (Q := fun _ r ↦ d = src.fetch name ∧ Holds src Kept r)
      (Ensures.modify ?_) fun _ ↦ Ensures.pure fun _ h ↦ h
    rintro r' ⟨rfl, hr'⟩
    refine ⟨rfl, fun p hp ↦ ?_, hr'.kept⟩
    obtain rfl | hp := List.mem_cons.mp hp
    · rfl
    · exact hr'.fetched p hp

theorem prefetch (depth : Int) (names : List String) :
    Ensures (Holds src Kept) (Resolve.prefetch src opts depth names) fun _ ↦ Holds src Kept := by
  refine Ensures.get_bind fun r hr ↦ ?_
  dsimp only
  split
  · refine (Ensures.forM fun name _ ↦ ?_).weaken (fun r' hr' ↦ hr' ▸ hr) fun _ _ h ↦ h
    exact Ensures.bind (fetch name) fun _ ↦ Ensures.pure fun _ h ↦ h.2
  · exact Ensures.pure fun r' hr' ↦ hr' ▸ hr

end Holds

def Gives (src : Source) (Kept : String → Outcome → Prop) (m : Resolve Outcome)
    (Q : Outcome → Prop) : Prop :=
  Ensures (Holds src Kept) m fun o r ↦ Q o ∧ Holds src Kept r

theorem ensures_callOne_takeIn {P : Outcome → Prop} {isInLoop : Bool}
    (hf : Gives src Kept (follow name isInLoop) P) (a : Analysis) :
    Ensures (Holds src Kept) (callOne follow a name isInLoop) fun b r ↦
      (∃ o, P o ∧ b = takeIn name isInLoop o a) ∧ Holds src Kept r := by
  refine Ensures.bind hf fun o ↦ ?_
  cases o with
  | ok child => exact Ensures.pure fun r hr ↦ ⟨⟨.ok child, hr.1, rfl⟩, hr.2⟩
  | error e =>
    refine Ensures.bind (Q := fun _ r ↦ P (.error e) ∧ Holds src Kept r)
      (Ensures.modify fun r hr ↦ ⟨hr.1, hr.2.fetched, hr.2.kept⟩) fun _ ↦ ?_
    exact Ensures.pure fun r hr ↦ ⟨⟨.error e, hr.1, rfl⟩, hr.2⟩

/-- The calls of a flow are taken into its analysis one after the other. Since they are told apart, a
function from names tells what came of each. -/
theorem ensures_foldlM_takeIn {calls : List (String × Bool)} (hnodup : (calls.map (·.1)).Nodup)
    (hf : ∀ call ∈ calls, Gives src Kept (follow call.1 call.2) (Q call.1)) (a : Analysis) :
    Ensures (Holds src Kept)
      (calls.foldlM (fun a (name, isInLoop) ↦ callOne follow a name isInLoop) a) fun b r ↦
      (∃ called : String → Outcome, (∀ call ∈ calls, Q call.1 (called call.1)) ∧
        b = calls.foldl (fun a call ↦ takeIn call.1 call.2 (called call.1) a) a) ∧
      Holds src Kept r := by
  induction calls generalizing a with
  | nil => exact Ensures.pure fun r hr ↦ ⟨⟨fun _ ↦ default, by simp, rfl⟩, hr⟩
  | cons call calls ih =>
    obtain ⟨hnew, hrest⟩ := List.nodup_cons.mp hnodup
    have hne : ∀ c ∈ calls, c.1 ≠ call.1 := by
      intro c hc heq
      exact hnew (List.mem_map.mpr ⟨c, hc, heq⟩)
    rw [List.foldlM_cons]
    refine Ensures.bind (ensures_callOne_takeIn (hf call List.mem_cons_self) a) fun b ↦ ?_
    rintro r ⟨⟨o, ho, rfl⟩, hr⟩
    obtain ⟨⟨called, hcalled, hb⟩, hr'⟩ :=
      ih hrest (fun c hc ↦ hf c (List.mem_cons_of_mem _ hc)) (takeIn call.1 call.2 o a) r hr
    refine ⟨⟨Function.update called call.1 o, fun c hc ↦ ?_, ?_⟩, hr'⟩
    · obtain rfl | hc := List.mem_cons.mp hc
      · rwa [Function.update_self]
      · rw [Function.update_of_ne (hne c hc)]
        exact hcalled c hc
    · rw [hb, List.foldl_cons, Function.update_self]
      apply List.foldl_ext
      intro b c hc
      rw [Function.update_of_ne (hne c hc)]

/-- The analysis is gathered from what came of the calls, which has the property. -/
def GatheredFrom (opts : Resolver.Options) (Q : String → Outcome → Prop) (md : Metadata)
    (version : Option Version) (depth : Int) (a : Analysis) : Prop :=
  ∃ called : String → Outcome, (∀ call ∈ callsOf opts md, Q call.1 (called call.1)) ∧
    a = gather opts called md version depth

theorem ensures_analyzeWith_gathered
    (hf : ∀ call ∈ callsOf opts md, Gives src Kept (follow call.1 call.2) (Q call.1)) :
    Ensures (Holds src Kept) (analyzeWith src opts follow md version depth) fun a r ↦
      GatheredFrom opts Q md version depth a ∧ Holds src Kept r :=
  Ensures.bind (Holds.prefetch _ _) fun _ ↦
    ensures_foldlM_takeIn (nodup_callsOf opts md) hf (ownAnalysis opts md version depth)

/-- What comes of a called flow: there is no canonical form of it, or what is gathered. -/
inductive Made (src : Source) (opts : Resolver.Options) (Q : String → Outcome → Prop) (depth : Int)
    (name : String) : Outcome → Prop
  | failed {e : Failure} (h : readFlow src name = .error e) : Made src opts Q depth name (.error e)
  | gathered {md : Metadata} {version : Version} {a : Analysis}
      (h : readFlow src name = .ok (md, version))
      (ha : GatheredFrom opts Q md (some version) depth a) : Made src opts Q depth name (.ok a)

theorem gives_computeWith (hf : ∀ md version, readFlow src name = .ok (md, version) →
      ∀ call ∈ callsOf opts md, Gives src Kept (follow call.1 call.2) (Q call.1)) :
    Gives src Kept (computeWith src opts follow name depth) (Made src opts Q depth name) := by
  refine Ensures.bind (Holds.fetch name) fun fetched r hr ↦ ?_
  obtain ⟨rfl, hr⟩ := hr
  cases hd : src.fetch name with
  | error e =>
    have hread : readFlow src name = .error (.fetchFailed e) := by simp only [readFlow, hd]
    exact ⟨.failed hread, hr⟩
  | ok d =>
    cases hmd : Metadata.ofDefinition d with
    | error e =>
      have hread : readFlow src name = .error (.fetchFailed (.within name (.malformed e))) := by
        simp only [readFlow, hd, hmd]
      simp only [hmd]
      exact ⟨.failed hread, hr⟩
    | ok md =>
      have hread : readFlow src name = .ok (md, d.version) := by simp only [readFlow, hd, hmd]
      have hanalyze : Gives src Kept
          (do return .ok (← analyzeWith src opts follow md (some d.version) depth))
          (Made src opts Q depth name) := by
        refine Ensures.bind (ensures_analyzeWith_gathered (hf md d.version hread)) fun a ↦ ?_
        exact Ensures.pure fun r hr ↦ ⟨.gathered hread hr.1, hr.2⟩
      simp only [hmd]
      exact hanalyze r hr

/-- Properties of what is asked, kept and given that fit together: what is given to allowed calls
follows from what is given one level down, and may be kept and served. The calls that may be followed
from a call are counted by the first argument. -/
structure Answering (src : Source) (opts : Resolver.Options) (Asked : Nat → Int → String → Prop)
    (Kept : String → Outcome → Prop) (Given : Nat → Int → String → Outcome → Prop) : Prop where
  limit : ∀ depth name, Asked 0 depth name → Given 0 depth name (.ok (.depthExceeded name depth))
  below : ∀ left depth name, Asked (left + 1) depth name → ∀ md version,
    readFlow src name = .ok (md, version) → ∀ call ∈ callsOf opts md, Asked left (depth + 1) call.1
  made : ∀ left depth name, Asked (left + 1) depth name → ∀ o,
    Made src opts (Given left (depth + 1)) depth name o → Given (left + 1) depth name o
  keep : ∀ left depth name, Asked (left + 1) depth name → ∀ o,
    Given (left + 1) depth name o → Kept name o
  serve : ∀ left depth name, Asked (left + 1) depth name → ∀ o,
    Kept name o → Given (left + 1) depth name o.served

namespace Answering

variable {Asked : Nat → Int → String → Prop} {Given : Nat → Int → String → Outcome → Prop}

theorem gives_resolve (h : Answering src opts Asked Kept Given) (hasked : Asked left depth name)
    (chain : List String) (isInLoop : Bool) :
    Gives src Kept (resolve src opts left depth chain name isInLoop) (Given left depth name) := by
  induction left generalizing depth chain name isInLoop with
  | zero =>
    refine Ensures.bind (Holds.log _ _ _) fun _ ↦ Ensures.pure fun r hr ↦ ⟨?_, hr⟩
    exact h.limit depth name hasked
  | succ left ih =>
    have hcompute : Gives src Kept
        (computeWith src opts (resolve src opts left (depth + 1) (chain ++ [name])) name depth)
        (Given (left + 1) depth name) := by
      refine (gives_computeWith fun md version hread call hcall ↦ ?_).weaken (fun _ hr ↦ hr)
        fun o r hr ↦ ⟨h.made left depth name hasked o hr.1, hr.2⟩
      exact ih (h.below left depth name hasked md version hread call hcall) _ _
    unfold resolve
    by_cases hchain : chain.contains name = true
    · rw [if_pos hchain]
      exact Ensures.bind (Holds.log _ _ _) fun _ ↦ hcompute
    · rw [if_neg hchain]
      refine Ensures.get_bind fun r hr ↦ ?_
      cases hfind : r.find? name with
      | none =>
        refine Ensures.bind (Q := fun _ ↦ Holds src Kept)
          (Ensures.modify fun r' hr' ↦ hr' ▸ hr.enter) fun _ ↦ ?_
        refine Ensures.bind (Holds.log _ _ _) fun _ ↦ Ensures.bind hcompute fun o ↦ ?_
        refine Ensures.bind (Q := fun _ r ↦ Given (left + 1) depth name o ∧ Holds src Kept r)
          (Ensures.modify fun r hr ↦ ⟨hr.1, hr.2.finish ?_⟩) fun _ ↦ Ensures.pure fun r hr ↦ hr
        exact h.keep left depth name hasked o hr.1
      | some e =>
        cases e with
        | none =>
          refine (Ensures.bind (Holds.log _ _ _) fun _ ↦ hcompute).weaken (fun r' hr' ↦ ?_)
            fun _ _ h ↦ h
          exact hr' ▸ hr
        | some o =>
          refine Ensures.bind (Q := fun _ ↦ Holds src Kept) (Ensures.modify fun r' hr' ↦ ?_)
            fun _ ↦ Ensures.pure fun r' hr' ↦ ⟨?_, hr'⟩
          · exact hr' ▸ ⟨hr.fetched, hr.kept⟩
          · exact h.serve left depth name hasked o (hr.find? hfind)

theorem ensures_analyzeMetadata_gathered (h : Answering src opts Asked Kept Given)
    (hasked : ∀ call ∈ callsOf opts md, Asked (opts.maxDepth - 1) 1 call.1) :
    Ensures (Holds src Kept) (analyzeMetadata src opts md version) fun a r ↦
      GatheredFrom opts (Given (opts.maxDepth - 1) 1) md version 0 a ∧ Holds src Kept r :=
  ensures_analyzeWith_gathered fun call hcall ↦ h.gives_resolve (hasked call hcall) _ _

end Answering

/-- What comes of the flow that was asked for: a failure if it has no canonical form, or else what is
gathered. -/
inductive Reported (opts : Resolver.Options) (Q : String → Outcome → Prop) :
    Except Failure (Metadata × Version) → Outcome → Prop
  | failed (e e' : Failure) : Reported opts Q (.error e) (.error e')
  | gathered {md : Metadata} {version : Version} {a : Analysis}
      (ha : GatheredFrom opts Q md (some version) 0 a) : Reported opts Q (.ok (md, version)) (.ok a)

theorem Reported.error {e e' : Failure} (h : Reported opts Q (.error e) o) :
    Reported opts Q (.error e') o := by
  cases h
  exact .failed _ _

namespace Answering

variable {Asked : Nat → Int → String → Prop} {Given : Nat → Int → String → Outcome → Prop}

theorem gives_analyzeDefinition (h : Answering src opts Asked Kept Given) (d : Definition)
    (hasked : ∀ md, Metadata.ofDefinition d = .ok md →
      ∀ call ∈ callsOf opts md, Asked (opts.maxDepth - 1) 1 call.1) :
    Gives src Kept (analyzeDefinition src opts d)
      (Reported opts (Given (opts.maxDepth - 1) 1)
        (((Metadata.ofDefinition d).mapError .malformed).map (·, d.version))) := by
  unfold analyzeDefinition
  cases hmd : Metadata.ofDefinition d with
  | error e => exact Ensures.pure fun r hr ↦ ⟨.failed _ _, hr⟩
  | ok md =>
    refine Ensures.bind (h.ensures_analyzeMetadata_gathered (hasked md hmd)) fun a ↦ ?_
    exact Ensures.pure fun r hr ↦ ⟨.gathered hr.1, hr.2⟩

theorem gives_analyze (h : Answering src opts Asked Kept Given) (root : String)
    (hasked : ∀ md version, readFlow src root = .ok (md, version) →
      ∀ call ∈ callsOf opts md, Asked (opts.maxDepth - 1) 1 call.1) :
    Gives src Kept (analyze src opts root)
      (Reported opts (Given (opts.maxDepth - 1) 1) (readFlow src root)) := by
  refine Ensures.bind (Holds.fetch root) fun fetched r hr ↦ ?_
  obtain ⟨rfl, hr⟩ := hr
  cases hd : src.fetch root with
  | error e =>
    have hread : readFlow src root = .error (.fetchFailed e) := by simp only [readFlow, hd]
    exact ⟨hread ▸ .failed _ _, hr⟩
  | ok d =>
    have hdef := h.gives_analyzeDefinition d (fun md hmd ↦
      hasked md d.version (by simp only [readFlow, hd, hmd])) r hr
    refine ⟨?_, hdef.2⟩
    have hreported := hdef.1
    cases hmd : Metadata.ofDefinition d with
    | error e =>
      simp only [readFlow, hd, hmd] at hreported ⊢
      exact hreported.error
    | ok md =>
      simp only [readFlow, hd, hmd] at hreported ⊢
      exact hreported

end Answering

/-- What can be asked of a resolver: a flow by its name, a definition at hand, or a flow as one that
is called at a depth. -/
inductive Request where
  | named (root : String)
  | given (d : Definition)
  | called (depth : Int) (name : String) (isInLoop : Bool)

def Request.answer (src : Source) (opts : Resolver.Options) : Request → Resolve Outcome
  | .named root => analyze src opts root
  | .given d => analyzeDefinition src opts d
  | .called depth name isInLoop => resolveAt src opts depth name isInLoop

def after (src : Source) (opts : Resolver.Options) (requests : List Request) : Resolver :=
  requests.foldl (fun r q ↦ ((q.answer src opts).run r).2) {}

namespace Answering

variable {Given : Nat → Int → String → Outcome → Prop} {P : Outcome → Prop}

theorem gives_answer (h : Answering src opts (fun _ _ _ ↦ True) Kept Given)
    (herror : ∀ e, P (.error e)) (hgiven : ∀ left depth name o, Given left depth name o → P o)
    (hroot : ∀ md version a, GatheredFrom opts (Given (opts.maxDepth - 1) 1) md version 0 a →
      P (.ok a)) (q : Request) : Gives src Kept (q.answer src opts) P := by
  have hreported : ∀ x o, Reported opts (Given (opts.maxDepth - 1) 1) x o → P o := by
    rintro - - (_ | ha)
    · exact herror _
    · exact hroot _ _ _ ha
  cases q with
  | named root =>
    exact (h.gives_analyze root (fun _ _ _ _ _ ↦ trivial)).weaken (fun _ hr ↦ hr)
      fun o r hr ↦ ⟨hreported _ _ hr.1, hr.2⟩
  | given d =>
    exact (h.gives_analyzeDefinition d (fun _ _ _ _ ↦ trivial)).weaken (fun _ hr ↦ hr)
      fun o r hr ↦ ⟨hreported _ _ hr.1, hr.2⟩
  | called depth name isInLoop =>
    exact (h.gives_resolve trivial [] isInLoop).weaken (fun _ hr ↦ hr)
      fun o r hr ↦ ⟨hgiven _ _ _ _ hr.1, hr.2⟩

/-- Whatever has been asked, what a resolver keeps is well. -/
theorem holds_after (h : Answering src opts (fun _ _ _ ↦ True) Kept Given)
    (requests : List Request) : Holds src Kept (after src opts requests) := by
  have hanswer (q : Request) : Gives src Kept (q.answer src opts) fun _ ↦ True :=
    h.gives_answer (fun _ ↦ trivial) (fun _ _ _ _ _ ↦ trivial) (fun _ _ _ _ ↦ trivial) q
  refine List.foldlRecOn requests _ (motive := Holds src Kept) (holds_empty src Kept) ?_
  intro r hr q _
  exact (hanswer q r hr).2

end Answering

end Resolve

end FlowAudit
