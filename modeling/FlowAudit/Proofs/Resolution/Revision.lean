import FlowAudit.Proofs.Analysis.Tree
import FlowAudit.Proofs.Resolution.Answers

namespace FlowAudit

def Definition.revise (v : Version) (d : Definition) : Definition := { d with version := v }

theorem ofDefinition_revise (v : Version) (d : Definition) :
    Metadata.ofDefinition (d.revise v) = Metadata.ofDefinition d :=
  rfl

namespace Source

def revised (flow : String) (v : Version) (name : String) (d : Except Failure Definition) :
    Except Failure Definition :=
  if name = flow then d.map (·.revise v) else d

def revise (src : Source) (flow : String) (v : Version) : Source :=
  { src with fetch := fun name ↦ revised flow v name (src.fetch name) }

end Source

def Findings.mapVersion (w : String → Option Version → Option Version) (f : Findings) : Findings :=
  { f with version := w f.name f.version }

def versionRevised (name : String) (v : Version) (n : String) (told : Option Version) :
    Option Version :=
  if n = name then told.map fun _ ↦ v else told

namespace Analysis

variable {w : String → Option Version → Option Version} {name : String} {v : Version}

def revise (name : String) (v : Version) : Analysis → Analysis :=
  mapAll (Findings.mapVersion (versionRevised name v))

def reviseBelow (w : String → Option Version → Option Version) (name : String) (v : Version)
    (a : Analysis) : Analysis :=
  node (a.findings.mapVersion w) (a.children.map (Option.map (revise name v)))

theorem revise_eq (a : Analysis) : a.revise name v = a.reviseBelow (versionRevised name v) name v := by
  cases a with
  | node f children => rw [revise, mapAll_node]; rfl

theorem revise_depthExceeded (n : String) (depth : Int) :
    (depthExceeded n depth).revise name v = depthExceeded n depth := by
  have h : versionRevised name v n none = none := by simp [versionRevised]
  rw [revise_eq]
  simp only [reviseBelow, depthExceeded, findings, children, Findings.mapVersion, h, List.map_nil]

theorem reviseBelow_addCalled (child a : Analysis) :
    (Resolve.addCalled child a).reviseBelow w name v =
      Resolve.addCalled (child.revise name v) (a.reviseBelow w name v) := by
  cases a with
  | node f children =>
    simp only [Resolve.addCalled, reviseBelow, findings, Analysis.children, Findings.mapVersion,
      List.map_append, List.map_cons, List.map_nil, Option.map_some]
    rw [revise_eq child]
    rfl

end Analysis

def Outcome.revise (name : String) (v : Version) (o : Outcome) : Outcome := o.map (·.revise name v)

theorem Outcome.served_revise (name : String) (v : Version) (o : Outcome) :
    (o.revise name v).served = o.served.revise name v := by
  cases o with
  | error e => rfl
  | ok a =>
    cases a
    rfl

def Resolver.revise (flow name : String) (v : Version) (r : Resolver) : Resolver :=
  { r with
    entries := r.entries.map fun p ↦ (p.1, p.2.map (Outcome.revise name v))
    fetched := r.fetched.map fun p ↦ (p.1, Source.revised flow v p.1 p.2) }

theorem Resolver.find?_revise (flow name : String) (v : Version) (r : Resolver) (n : String) :
    (r.revise flow name v).find? n = (r.find? n).map (Option.map (Outcome.revise name v)) := by
  simp only [Resolver.find?, Resolver.revise, List.find?_map, Function.comp_def, Option.map_map]

theorem Resolver.finish_revise (flow name : String) (v : Version) (r : Resolver) (n : String)
    (o : Outcome) :
    (r.finish n o).revise flow name v = (r.revise flow name v).finish n (o.revise name v) := by
  simp only [Resolver.finish, Resolver.revise, List.map_map, Resolver.mk.injEq, and_true]
  refine List.map_congr_left fun p _ ↦ ?_
  by_cases h : p.1 = n <;> simp [h]

namespace Resolve

/-- Started in a state with the precondition and in its image under `u`, the computations end in a
state with the postcondition and in its image, and they give a value and its image under `h`. -/
def Mirrors {α : Type} (u : Resolver → Resolver) (h : α → α) (P : Resolver → Prop)
    (m m' : Resolve α) (Q : α → Resolver → Prop) : Prop :=
  ∀ r, P r → m'.run (u r) = (h (m.run r).1, u (m.run r).2) ∧ Q (m.run r).1 (m.run r).2

namespace Mirrors

variable {α β : Type} {u : Resolver → Resolver} {h : α → α} {k : β → β} {P : Resolver → Prop}
  {Q : α → Resolver → Prop} {R : β → Resolver → Prop} {m m' : Resolve α} {f f' : α → Resolve β}

theorem weaken {P' : Resolver → Prop} (hm : Mirrors u h P m m' Q) (hP : ∀ r, P' r → P r) :
    Mirrors u h P' m m' Q :=
  fun r hr ↦ hm r (hP r hr)

theorem pure {a : α} (hQ : ∀ r, P r → Q a r) : Mirrors u h P (Pure.pure a) (Pure.pure (h a)) Q :=
  fun r hr ↦ ⟨rfl, hQ r hr⟩

theorem bind (hm : Mirrors u h P m m' Q) (hf : ∀ a, Mirrors u k (Q a) (f a) (f' (h a)) R) :
    Mirrors u k P (m >>= f) (m' >>= f') R := by
  intro r hr
  obtain ⟨heq, hQ⟩ := hm r hr
  have hrun : (m' >>= f').run (u r) = (f' (m'.run (u r)).1).run (m'.run (u r)).2 := rfl
  rw [hrun, heq]
  exact hf _ _ hQ

theorem get_bind {f f' : Resolver → Resolve β}
    (hf : ∀ r, P r → Mirrors u k (· = r) (f r) (f' (u r)) R) :
    Mirrors u k P (get >>= f) (get >>= f') R :=
  fun r hr ↦ hf r hr r rfl

theorem modify {g g' : Resolver → Resolver} {k : Unit → Unit} {Q : Unit → Resolver → Prop}
    (hg : ∀ r, P r → g' (u r) = u (g r)) (hQ : ∀ r, P r → Q () (g r)) :
    Mirrors u k P (modify g) (modify g') Q :=
  fun r hr ↦ ⟨Prod.ext rfl (hg r hr), hQ r hr⟩

theorem forM {ι : Type} {f f' : ι → Resolve PUnit} {is : List ι}
    (hf : ∀ i, Mirrors u id P (f i) (f' i) fun _ ↦ P) :
    Mirrors u id P (is.forM f) (is.forM f') fun _ ↦ P := by
  induction is with
  | nil => exact pure fun _ hr ↦ hr
  | cons i is ih => exact bind (hf i) fun _ ↦ ih

theorem foldlM {ι : Type} {f f' : α → ι → Resolve α} {is : List ι}
    (hf : ∀ a i, Mirrors u h P (f a i) (f' (h a) i) fun _ ↦ P) (a : α) :
    Mirrors u h P (is.foldlM f a) (is.foldlM f' (h a)) fun _ ↦ P := by
  induction is generalizing a with
  | nil => exact pure fun _ hr ↦ hr
  | cons i is ih =>
    rw [List.foldlM_cons, List.foldlM_cons]
    exact bind (hf a i) fun b ↦ ih b

end Mirrors

section Revised

variable {src : Source} {opts : Resolver.Options} {flow name : String} {v : Version}
  {w : String → Option Version → Option Version}

abbrev Knows (src : Source) : Resolver → Prop := Holds src fun _ _ ↦ True

theorem mirrors_log (level : Log.Level) (message : String) (attributes : List (String × Log.Value)) :
    Mirrors (Resolver.revise flow name v) id (Knows src) (log level message attributes)
      (log level message attributes) fun _ ↦ Knows src :=
  Mirrors.modify (fun _ _ ↦ rfl) fun _ hr ↦ ⟨hr.fetched, hr.kept⟩

theorem run_fetch (src : Source) (n : String) (r : Resolver) :
    (fetch src n).run r = match r.fetched.find? (·.1 == n) with
      | some p => (p.2, r)
      | none => (src.fetch n,
          { r with asked := n :: r.asked, fetched := (n, src.fetch n) :: r.fetched }) := by
  simp only [fetch, StateT.run_bind, StateT.run_get, pure_bind]
  cases r.fetched.find? (·.1 == n) <;> rfl

theorem mirrors_fetch (n : String) :
    Mirrors (Resolver.revise flow name v) (Source.revised flow v n) (Knows src) (fetch src n)
      (fetch (src.revise flow v) n) fun d r ↦ d = src.fetch n ∧ Knows src r := by
  intro r hr
  refine ⟨?_, Holds.fetch n r hr⟩
  have hfind : (r.revise flow name v).fetched.find? (·.1 == n) =
      (r.fetched.find? (·.1 == n)).map fun p ↦ (p.1, Source.revised flow v p.1 p.2) := by
    simp only [Resolver.revise, List.find?_map, Function.comp_def]
  rw [run_fetch, run_fetch, hfind]
  cases hf : r.fetched.find? (·.1 == n) with
  | none => rfl
  | some p =>
    have hn : p.1 = n := by simpa using List.find?_some hf
    simp only [Option.map_some, hn]

theorem mirrors_prefetch (depth : Int) (names : List String) :
    Mirrors (Resolver.revise flow name v) id (Knows src) (prefetch src opts depth names)
      (prefetch (src.revise flow v) opts depth names) fun _ ↦ Knows src := by
  refine Mirrors.get_bind fun r hr ↦ ?_
  have hhas (n : String) : (r.revise flow name v).has n = r.has n := by
    rw [Resolver.has, Resolver.find?_revise, Option.isSome_map, Resolver.has]
  simp only [hhas]
  have hone (n : String) : Mirrors (Resolver.revise flow name v) id (Knows src)
      (discard (fetch src n)) (discard (fetch (src.revise flow v) n)) fun _ ↦ Knows src := by
    intro r hr
    have hfetch : Mirrors (Resolver.revise flow name v) (Source.revised flow v n) (Knows src)
        (fetch src n) (fetch (src.revise flow v) n) _ := mirrors_fetch n
    obtain ⟨heq, -, hr'⟩ := hfetch r hr
    exact ⟨congrArg (Prod.map (fun _ ↦ PUnit.unit) id) heq, hr'⟩
  split
  · exact fun r' hr' ↦ (Mirrors.forM hone) r' (hr' ▸ hr)
  · exact Mirrors.pure fun r' hr' ↦ hr' ▸ hr

def MirrorsFollow (src : Source) (flow name : String) (v : Version) (follow follow' : Follow) : Prop :=
  ∀ n isInLoop, Mirrors (Resolver.revise flow name v) (Outcome.revise name v) (Knows src)
    (follow n isInLoop) (follow' n isInLoop) fun _ ↦ Knows src

variable {follow follow' : Follow}

theorem mirrors_callOne (hfollow : MirrorsFollow src flow name v follow follow') (a : Analysis)
    (n : String) (isInLoop : Bool) :
    Mirrors (Resolver.revise flow name v) (Analysis.reviseBelow w name v) (Knows src)
      (callOne follow a n isInLoop) (callOne follow' (a.reviseBelow w name v) n isInLoop)
      fun _ ↦ Knows src := by
  have hloop : (if isInLoop then (a.reviseBelow w name v).mapFindings fun f ↦
        { f with subflowsInLoop := f.subflowsInLoop ++ [n] } else a.reviseBelow w name v) =
      (if isInLoop then a.mapFindings fun f ↦
        { f with subflowsInLoop := f.subflowsInLoop ++ [n] } else a).reviseBelow w name v := by
    cases a
    cases isInLoop <;> rfl
  unfold callOne
  simp only [hloop]
  generalize (if isInLoop then a.mapFindings fun f ↦
    { f with subflowsInLoop := f.subflowsInLoop ++ [n] } else a) = b
  refine Mirrors.bind (hfollow n isInLoop) fun o ↦ ?_
  cases o with
  | ok child =>
    simp only [Outcome.revise, Except.map, ← Analysis.reviseBelow_addCalled]
    exact Mirrors.pure fun _ hr ↦ hr
  | error e =>
    cases b
    exact Mirrors.bind (mirrors_log _ _ _) fun _ ↦ Mirrors.pure fun _ hr ↦ hr

theorem reviseBelow_ownAnalysis (md : Metadata) (version : Option Version) (depth : Int) :
    (ownAnalysis opts md version depth).reviseBelow w name v =
      ownAnalysis opts md (w md.name version) depth := by
  have hname : (Single.analyze opts.loops md depth).findings.name = md.name := by
    simp only [Single.analyze, Findings.ofMetrics]
  simp only [ownAnalysis, Analysis.reviseBelow, Analysis.findings, Analysis.children,
    Findings.mapVersion, hname, List.map_nil]

theorem mirrors_analyzeWith (hfollow : MirrorsFollow src flow name v follow follow') (md : Metadata)
    (version : Option Version) (depth : Int) :
    Mirrors (Resolver.revise flow name v) (Analysis.reviseBelow w name v) (Knows src)
      (analyzeWith src opts follow md version depth)
      (analyzeWith (src.revise flow v) opts follow' md (w md.name version) depth)
      fun _ ↦ Knows src := by
  refine Mirrors.bind (mirrors_prefetch _ _) fun _ ↦ ?_
  have hown : ownAnalysis opts md (w md.name version) depth =
      (ownAnalysis opts md version depth).reviseBelow w name v :=
    (reviseBelow_ownAnalysis md version depth).symm
  change Mirrors _ _ _ (List.foldlM _ (ownAnalysis opts md version depth) _)
    (List.foldlM _ (ownAnalysis opts md (w md.name version) depth) _) _
  rw [hown]
  exact Mirrors.foldlM (fun a call ↦ mirrors_callOne hfollow a call.1 call.2) _

/-- The name stands in the document of the flow, and in that of no other flow of the source. -/
structure IsNameOf (src : Source) (name flow : String) : Prop where
  of_flow : ∀ md version, readFlow src flow = .ok (md, version) → md.name = name
  ne_of_ne : ∀ n md version, readFlow src n = .ok (md, version) → n ≠ flow → md.name ≠ name

theorem revised_error (n : String) (e : Failure) :
    Source.revised flow v n (.error e) = .error e := by
  unfold Source.revised
  split <;> rfl

/-- A flow whose document holds another name than the revised one keeps its version. -/
theorem exists_revised (hname : IsNameOf src name flow) {n : String} {d : Definition}
    (hd : src.fetch n = .ok d) :
    ∃ d', Source.revised flow v n (.ok d) = .ok d' ∧
      Metadata.ofDefinition d' = Metadata.ofDefinition d ∧
      ∀ md, Metadata.ofDefinition d = .ok md →
        some d'.version = versionRevised name v md.name (some d.version) := by
  have hread {md : Metadata} (hmd : Metadata.ofDefinition d = .ok md) :
      readFlow src n = .ok (md, d.version) := by
    simp only [readFlow, hd, hmd]
  by_cases hn : n = flow
  · refine ⟨d.revise v, by rw [Source.revised, if_pos hn]; rfl, rfl, fun md hmd ↦ ?_⟩
    have hsame : md.name = name := hname.of_flow md d.version (hn ▸ hread hmd)
    rw [versionRevised, if_pos hsame]
    rfl
  · refine ⟨d, by rw [Source.revised, if_neg hn], rfl, fun md hmd ↦ ?_⟩
    rw [versionRevised, if_neg (hname.ne_of_ne n md d.version (hread hmd) hn)]

theorem mirrors_computeWith (hname : IsNameOf src name flow)
    (hfollow : MirrorsFollow src flow name v follow follow') (n : String) (depth : Int) :
    Mirrors (Resolver.revise flow name v) (Outcome.revise name v) (Knows src)
      (computeWith src opts follow n depth) (computeWith (src.revise flow v) opts follow' n depth)
      fun _ ↦ Knows src := by
  refine Mirrors.bind (mirrors_fetch n) fun fetched r hr ↦ ?_
  obtain ⟨rfl, hr⟩ := hr
  cases hd : src.fetch n with
  | error e =>
    rw [revised_error]
    exact ⟨rfl, hr⟩
  | ok d =>
    obtain ⟨d', hd', hsame, hversion⟩ := exists_revised (v := v) hname hd
    rw [hd']
    simp only [hsame]
    cases hmd : Metadata.ofDefinition d with
    | error e => exact ⟨rfl, hr⟩
    | ok md =>
      have hmirrors : Mirrors (Resolver.revise flow name v) (Outcome.revise name v) (Knows src)
          (do return .ok (← analyzeWith src opts follow md (some d.version) depth))
          (do return .ok (← analyzeWith (src.revise flow v) opts follow' md (some d'.version) depth))
          fun _ ↦ Knows src := by
        rw [hversion md hmd]
        refine Mirrors.bind (mirrors_analyzeWith hfollow md _ depth) fun a ↦ ?_
        rw [← Analysis.revise_eq]
        exact Mirrors.pure fun _ hr ↦ hr
      exact hmirrors r hr

theorem mirrors_resolve (hname : IsNameOf src name flow) (left : Nat) (depth : Int)
    (chain : List String) :
    MirrorsFollow src flow name v (resolve src opts left depth chain)
      (resolve (src.revise flow v) opts left depth chain) := by
  induction left generalizing depth chain with
  | zero =>
    intro n isInLoop
    refine Mirrors.bind (mirrors_log _ _ _) fun _ ↦ ?_
    have hlimit : (.ok (.depthExceeded n depth) : Outcome) =
        Outcome.revise name v (.ok (.depthExceeded n depth)) :=
      congrArg Except.ok (Analysis.revise_depthExceeded n depth).symm
    nth_rewrite 2 [hlimit]
    exact Mirrors.pure fun _ hr ↦ hr
  | succ left ih =>
    intro n isInLoop
    have hcompute : Mirrors (Resolver.revise flow name v) (Outcome.revise name v) (Knows src)
        (computeWith src opts (resolve src opts left (depth + 1) (chain ++ [n])) n depth)
        (computeWith (src.revise flow v) opts
          (resolve (src.revise flow v) opts left (depth + 1) (chain ++ [n])) n depth)
        fun _ ↦ Knows src :=
      mirrors_computeWith hname (ih (depth + 1) (chain ++ [n])) n depth
    unfold resolve
    by_cases hchain : chain.contains n = true
    · rw [if_pos hchain, if_pos hchain]
      exact Mirrors.bind (mirrors_log _ _ _) fun _ ↦ hcompute
    · rw [if_neg hchain, if_neg hchain]
      refine Mirrors.get_bind fun r hr ↦ ?_
      rw [Resolver.find?_revise]
      cases hfind : r.find? n with
      | none =>
        refine Mirrors.bind (h := id) (Q := fun _ ↦ Knows src) (Mirrors.modify (fun _ _ ↦ rfl)
          fun r' hr' ↦ hr' ▸ hr.enter) fun _ ↦ ?_
        refine Mirrors.bind (mirrors_log _ _ _) fun _ ↦ Mirrors.bind hcompute fun o ↦ ?_
        refine Mirrors.bind (h := id) (Q := fun _ ↦ Knows src) (Mirrors.modify
          (fun r _ ↦ (Resolver.finish_revise flow name v r n o).symm)
          fun _ hr ↦ hr.finish trivial) fun _ ↦ ?_
        exact Mirrors.pure fun _ hr ↦ hr
      | some e =>
        cases e with
        | none =>
          refine Mirrors.weaken ?_ fun r' hr' ↦ hr'.symm ▸ hr
          exact Mirrors.bind (mirrors_log _ _ _) fun _ ↦ hcompute
        | some o =>
          refine Mirrors.bind (h := id) (Q := fun _ ↦ Knows src) (Mirrors.modify (fun _ _ ↦ rfl)
            fun r' hr' ↦ hr' ▸ ⟨hr.fetched, hr.kept⟩) fun _ ↦ ?_
          change Mirrors _ _ _ (Pure.pure o.served) (Pure.pure (Outcome.revise name v o).served) _
          rw [Outcome.served_revise]
          exact Mirrors.pure fun _ hr ↦ hr

/-- With another version of the flow in the source, and of the definition that was asked for, the
analysis tells other versions, and the rest is the same. -/
theorem analyzeDefinition_revise (hname : IsNameOf src name flow) (d : Definition) (v' : Version) :
    ((analyzeDefinition (src.revise flow v) opts (d.revise v')).run {}).1 =
      ((analyzeDefinition src opts d).run {}).1.map
        (Analysis.reviseBelow (fun _ _ ↦ some v') name v) := by
  unfold analyzeDefinition
  rw [ofDefinition_revise]
  cases Metadata.ofDefinition d with
  | error e => rfl
  | ok md =>
    have hmirrors : Mirrors (Resolver.revise flow name v)
        (Analysis.reviseBelow (fun _ _ ↦ some v') name v) (Knows src)
        (analyzeMetadata src opts md (some d.version))
        (analyzeMetadata (src.revise flow v) opts md (some v')) fun _ ↦ Knows src :=
      mirrors_analyzeWith (mirrors_resolve hname (opts.maxDepth - 1) 1 [md.name]) md _ 0
    exact congrArg (fun p ↦ (.ok p.1 : Outcome)) (hmirrors {} (holds_empty _ _)).1

end Revised

end Resolve

end FlowAudit
