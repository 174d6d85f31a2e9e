import FlowAudit.Fingerprint
import FlowAudit.Proofs.Analysis.Tree
import FlowAudit.Proofs.Resolution.Accounting

namespace FlowAudit

namespace Fingerprint

mutual

def countedOf (seen : List String) : Analysis → List Analysis
  | .node f children =>
    if f.name ∈ seen then [] else .node f children :: countedIn (f.name :: seen) children

def countedIn (seen : List String) : List (Option Analysis) → List Analysis
  | [] => []
  | none :: rest => countedIn seen rest
  | some a :: rest =>
    let first := countedOf seen a
    first ++ countedIn (first.reverse.map (·.name) ++ seen) rest

end

def counted (a : Analysis) : List Analysis := countedIn [] a.children

mutual

theorem partsOf_eq (seen : List String) : ∀ a, partsOf seen a =
    ((countedOf seen a).map (part ·.findings), (countedOf seen a).reverse.map (·.name) ++ seen)
  | .node f children => by
    rw [partsOf, countedOf]
    by_cases hseen : f.name ∈ seen
    · rw [if_pos (by simpa using hseen), if_pos hseen]
      rfl
    · rw [if_neg (by simpa using hseen), if_neg hseen, partsIn_eq]
      simp [Analysis.findings, Analysis.name]

theorem partsIn_eq (seen : List String) : ∀ as, partsIn seen as =
    ((countedIn seen as).map (part ·.findings), (countedIn seen as).reverse.map (·.name) ++ seen)
  | [] => rfl
  | none :: rest => by rw [partsIn, countedIn, partsIn_eq seen rest]
  | some a :: rest => by
    rw [partsIn, countedIn, partsOf_eq seen a]
    simp only [partsIn_eq _ rest]
    simp

end

theorem parts_eq (a : Analysis) :
    parts a = ((counted a).map (part ·.findings)).mergeSort (· ≤ ·) := by
  rw [parts, partsIn_eq, counted]

section Mapped

variable {g : Findings → Findings}

mutual

theorem countedOf_mapAll (hg : ∀ f, (g f).name = f.name) (seen : List String) :
    ∀ a : Analysis, countedOf seen (a.mapAll g) = (countedOf seen a).map (·.mapAll g)
  | .node f children => by
    rw [Analysis.mapAll_node, countedOf, countedOf, hg]
    by_cases hseen : f.name ∈ seen
    · rw [if_pos hseen, if_pos hseen]
      rfl
    · rw [if_neg hseen, if_neg hseen, countedIn_mapAll hg, List.map_cons, Analysis.mapAll_node]

theorem countedIn_mapAll (hg : ∀ f, (g f).name = f.name) (seen : List String) :
    ∀ as : List (Option Analysis),
      countedIn seen (as.map (Option.map (Analysis.mapAll g))) =
        (countedIn seen as).map (·.mapAll g)
  | [] => rfl
  | none :: rest => by
    rw [List.map_cons, Option.map_none, countedIn, countedIn, countedIn_mapAll hg]
  | some a :: rest => by
    have hname (a : Analysis) : (a.mapAll g).name = a.name := by
      rw [Analysis.name, Analysis.findings_mapAll, hg, Analysis.name]
    rw [List.map_cons, Option.map_some, countedIn, countedIn, countedOf_mapAll hg]
    simp only [countedIn_mapAll hg, ← List.map_reverse, List.map_map, Function.comp_def, hname,
      List.map_append]

end

end Mapped

mutual

theorem mem_nodes_of_mem_countedOf {seen : List String} {n : Analysis} :
    ∀ {a : Analysis}, n ∈ countedOf seen a → n ∈ a.nodes
  | .node f children, h => by
    rw [countedOf] at h
    split at h
    · cases h
    · obtain rfl | h := List.mem_cons.1 h
      · exact Analysis.mem_nodes_self _
      · obtain ⟨b, hb, hn⟩ := mem_nodes_of_mem_countedIn h
        exact Analysis.mem_nodes_of_child hb hn

theorem mem_nodes_of_mem_countedIn {seen : List String} {n : Analysis} :
    ∀ {as : List (Option Analysis)}, n ∈ countedIn seen as → ∃ a, some a ∈ as ∧ n ∈ a.nodes
  | [], h => by cases h
  | none :: rest, h => by
    rw [countedIn] at h
    obtain ⟨a, ha, hn⟩ := mem_nodes_of_mem_countedIn h
    exact ⟨a, List.mem_cons_of_mem _ ha, hn⟩
  | some a :: rest, h => by
    rw [countedIn] at h
    obtain h | h := List.mem_append.1 h
    · exact ⟨a, List.mem_cons_self, mem_nodes_of_mem_countedOf h⟩
    · obtain ⟨b, hb, hn⟩ := mem_nodes_of_mem_countedIn h
      exact ⟨b, List.mem_cons_of_mem _ hb, hn⟩

end

mutual

theorem nodup_countedOf (seen : List String) : ∀ a, ((countedOf seen a).map (·.name)).Nodup ∧
    ∀ n ∈ countedOf seen a, n.name ∉ seen
  | .node f children => by
    rw [countedOf]
    split
    · simp
    · next hseen =>
      obtain ⟨hnodup, hnew⟩ := nodup_countedIn (f.name :: seen) children
      simp only [List.map_cons, List.nodup_cons, List.mem_map, not_exists, not_and, List.forall_mem_cons]
      refine ⟨⟨fun n hn heq ↦ hnew n hn (heq ▸ List.mem_cons_self), hnodup⟩, hseen, fun n hn h ↦ ?_⟩
      exact hnew n hn (List.mem_cons_of_mem _ h)

theorem nodup_countedIn (seen : List String) : ∀ as, ((countedIn seen as).map (·.name)).Nodup ∧
    ∀ n ∈ countedIn seen as, n.name ∉ seen
  | [] => by simp [countedIn]
  | none :: rest => by
    rw [countedIn]
    exact nodup_countedIn seen rest
  | some a :: rest => by
    obtain ⟨hfirst, hnew⟩ := nodup_countedOf seen a
    obtain ⟨hrest, hnew'⟩ :=
      nodup_countedIn ((countedOf seen a).reverse.map (·.name) ++ seen) rest
    rw [countedIn, List.map_append, List.nodup_append]
    simp only [List.map_reverse, List.mem_append, List.mem_reverse, not_or] at hnew'
    refine ⟨⟨hfirst, hrest, ?_⟩, fun n hn ↦ ?_⟩
    · rintro x hx y hy rfl
      obtain ⟨n, hn, rfl⟩ := List.mem_map.1 hy
      exact (hnew' n (by simpa using hn)).1 hx
    · obtain hn | hn := List.mem_append.1 hn
      · exact hnew n hn
      · exact (hnew' n (by simpa using hn)).2

end

def IsMet (seen : List String) (as : List Analysis) (name : String) : Prop :=
  name ∈ seen ∨ ∃ n ∈ as, n.name = name

def IsClosed (seen : List String) (as : List Analysis) : Prop :=
  ∀ n ∈ as, ∀ b, some b ∈ n.children → IsMet seen as b.name

theorem IsMet.mono {seen seen' : List String} {as as' : List Analysis} {name : String}
    (h : IsMet seen as name) (hseen : ∀ x ∈ seen, IsMet seen' as' x) (has : ∀ n ∈ as, n ∈ as') :
    IsMet seen' as' name := by
  obtain h | ⟨n, hn, rfl⟩ := h
  · exact hseen name h
  · exact .inr ⟨n, has n hn, rfl⟩

mutual

/-- The walk meets where it starts, and all that is called by what it counts. -/
theorem isClosed_countedOf (seen : List String) : ∀ a : Analysis,
    IsMet seen (countedOf seen a) a.name ∧ IsClosed seen (countedOf seen a)
  | .node f children => by
    rw [countedOf]
    split
    · next hseen => exact ⟨.inl hseen, fun n hn ↦ absurd hn List.not_mem_nil⟩
    · obtain ⟨hmet, hclosed⟩ := isClosed_countedIn (f.name :: seen) children
      have hlift {x : String} (h : IsMet (f.name :: seen) (countedIn (f.name :: seen) children) x) :
          IsMet seen (.node f children :: countedIn (f.name :: seen) children) x := by
        refine h.mono (fun y hy ↦ ?_) fun n hn ↦ List.mem_cons_of_mem _ hn
        obtain rfl | hy := List.mem_cons.1 hy
        · exact .inr ⟨_, List.mem_cons_self, rfl⟩
        · exact .inl hy
      refine ⟨.inr ⟨_, List.mem_cons_self, rfl⟩, fun n hn b hb ↦ hlift ?_⟩
      obtain rfl | hn := List.mem_cons.1 hn
      · exact hmet b hb
      · exact hclosed n hn b hb

theorem isClosed_countedIn (seen : List String) : ∀ as : List (Option Analysis),
    (∀ b, some b ∈ as → IsMet seen (countedIn seen as) b.name) ∧ IsClosed seen (countedIn seen as)
  | [] => ⟨fun b hb ↦ absurd hb List.not_mem_nil, fun n hn ↦ absurd hn List.not_mem_nil⟩
  | none :: rest => by
    obtain ⟨hmet, hclosed⟩ := isClosed_countedIn seen rest
    rw [countedIn]
    refine ⟨fun b hb ↦ hmet b ?_, hclosed⟩
    simpa using hb
  | some a :: rest => by
    obtain ⟨hfirst, hclosed⟩ := isClosed_countedOf seen a
    obtain ⟨hmet, hclosed'⟩ := isClosed_countedIn ((countedOf seen a).reverse.map (·.name) ++ seen) rest
    rw [countedIn]
    have hleft {x : String} (h : IsMet seen (countedOf seen a) x) :
        IsMet seen (countedOf seen a ++
          countedIn ((countedOf seen a).reverse.map (·.name) ++ seen) rest) x :=
      h.mono (fun y hy ↦ .inl hy) fun n hn ↦ List.mem_append_left _ hn
    have hright {x : String} (h : IsMet ((countedOf seen a).reverse.map (·.name) ++ seen)
          (countedIn ((countedOf seen a).reverse.map (·.name) ++ seen) rest) x) :
        IsMet seen (countedOf seen a ++
          countedIn ((countedOf seen a).reverse.map (·.name) ++ seen) rest) x := by
      refine h.mono (fun y hy ↦ ?_) fun n hn ↦ List.mem_append_right _ hn
      obtain hy | hy := List.mem_append.1 hy
      · obtain ⟨n, hn, rfl⟩ := List.mem_map.1 hy
        exact hleft (.inr ⟨n, List.mem_reverse.1 hn, rfl⟩)
      · exact .inl hy
    refine ⟨fun b hb ↦ ?_, fun n hn b hb ↦ ?_⟩
    · obtain heq | hb := List.mem_cons.1 hb
      · obtain rfl := Option.some.inj heq
        exact hleft hfirst
      · exact hright (hmet b hb)
    · obtain hn | hn := List.mem_append.1 hn
      · exact hleft (hclosed n hn b hb)
      · exact hright (hclosed' n hn b hb)

end

/-- If those that count have called whatever another one of the same name has called, then every name
below one whose name counts does so, too. -/
theorem IsClosed.exists_mem {as : List Analysis} {a : Analysis} (hclosed : IsClosed [] as)
    (halike : ∀ m ∈ as, ∀ c ∈ a.nodes, m.name = c.name → ∀ b, some b ∈ c.children →
      ∃ d, some d ∈ m.children ∧ d.name = b.name)
    (hmet : ∃ m ∈ as, m.name = a.name) : ∀ n ∈ a.nodes, ∃ m ∈ as, m.name = n.name := by
  induction a using Analysis.induction_called with
  | node f children ih =>
    intro n hn
    obtain rfl | ⟨b, hb, hn⟩ := Analysis.mem_nodes_iff.mp hn
    · exact hmet
    · obtain ⟨m, hm, hname⟩ := hmet
      obtain ⟨d, hd, hdb⟩ := halike m hm _ (Analysis.mem_nodes_self _) hname b hb
      have hmet : ∃ m ∈ as, m.name = b.name :=
        hdb ▸ (hclosed m hm d hd).resolve_left List.not_mem_nil
      exact ih b hb (fun m hm c hc ↦ halike m hm c (Analysis.mem_nodes_of_child hb hc)) hmet n hn

end Fingerprint

namespace Resolve

variable {src : Source} {opts : Resolver.Options} {md : Metadata} {version : Version}
  {name : String} {a n : Analysis}

/-- Documents of different flows of the source hold different names. -/
def NamesDiffer (src : Source) : Prop :=
  ∀ t t' p p', readFlow src t = .ok p → readFlow src t' = .ok p' → p.1.name = p'.1.name → t = t'

theorem Accounts.name_eq {called : String → Outcome} (h : Accounts opts md version called a) :
    a.name = md.name := by
  obtain ⟨depth, hown⟩ := h.own
  exact congrArg Findings.name hown

theorem Accounts.version_eq {called : String → Outcome} (h : Accounts opts md version called a) :
    a.findings.version = some version := by
  obtain ⟨depth, hown⟩ := h.own
  exact congrArg Findings.version hown

theorem Accounted.tells_child {b : Analysis} (h : Accounted src opts md version a)
    (hb : some b ∈ a.children) : ∃ name ∈ calledNames md, Tells src opts name (.ok b) := by
  cases h with
  | node called h hcalled =>
    obtain ⟨name, hname, hok⟩ := h.mem_children_iff.mp hb
    exact ⟨name, hname, hok ▸ hcalled name hname⟩

/-- The first flow can be read, and calls the second one. -/
def Calls (src : Source) (t t' : String) : Prop :=
  ∃ md version, readFlow src t = .ok (md, version) ∧ t' ∈ calledNames md

/-- All analyses below one that was told of a call were told of the calls that follow from it. -/
theorem Tells.of_mem_nodes (h : Tells src opts name (.ok a)) (hn : n ∈ a.nodes) :
    ∃ t, Relation.ReflTransGen (Calls src) name t ∧ Tells src opts t (.ok n) := by
  induction a using Analysis.induction_called generalizing name with
  | node f children ih =>
    obtain rfl | ⟨b, hb, hn⟩ := Analysis.mem_nodes_iff.mp hn
    · exact ⟨name, .refl, h⟩
    · cases h with
      | tooDeep => exact absurd hb List.not_mem_nil
      | analyzed hread ha =>
        obtain ⟨called, hcalled, htells⟩ := ha.tells_child hb
        obtain ⟨t, hpath, ht⟩ := ih b hb htells hn
        exact ⟨t, hpath.head ⟨_, _, hread, hcalled⟩, ht⟩

theorem Accounted.name_eq (h : Accounted src opts md version a) : a.name = md.name := by
  cases h with
  | node _ h _ => exact h.name_eq

theorem Accounted.version_eq (h : Accounted src opts md version a) :
    a.findings.version = some version := by
  cases h with
  | node _ h _ => exact h.version_eq

/-- What is told of a call that does not lie too deep is the analysis of the flow that was called. -/
theorem Tells.accounted (h : Tells src opts name (.ok a))
    (hmade : ∀ name depth, a ≠ .depthExceeded name depth) :
    ∃ md version, readFlow src name = .ok (md, version) ∧ Accounted src opts md version a := by
  cases h with
  | tooDeep => exact absurd rfl (hmade _ _)
  | analyzed hread ha => exact ⟨_, _, hread, ha⟩

theorem Tells.not_error {e : Failure} {p : Metadata × Version} (h : Tells src opts name (.error e)) :
    readFlow src name ≠ .ok p := by
  cases h with
  | failed hread =>
    rw [hread]
    simp

/-- A flow that is called by one of two analyses of the same flow is called by the other, too, unless
calls lie too deep. -/
theorem Accounted.exists_child {b m : Analysis} {version' : Version}
    (h : Accounted src opts md version n) (h' : Accounted src opts md version' m)
    (hb : some b ∈ n.children) (hmade : ∀ name depth, b ≠ .depthExceeded name depth)
    (hmade' : ∀ c, some c ∈ m.children → ∀ name depth, c ≠ .depthExceeded name depth) :
    ∃ c, some c ∈ m.children ∧ c.name = b.name := by
  obtain ⟨called, hcalled, htells⟩ := h.tells_child hb
  obtain ⟨mdb, versionb, hread, haccounted⟩ := htells.accounted hmade
  cases h' with
  | node outcome haccounts htells' =>
    have htold := htells' called hcalled
    cases hc : outcome called with
    | error e => exact absurd hread (hc ▸ htold).not_error
    | ok c =>
      have hchild : some c ∈ m.children := haccounts.mem_children_iff.mpr ⟨called, hcalled, hc⟩
      obtain ⟨mdc, versionc, hread', haccounted'⟩ := (hc ▸ htold).accounted (hmade' c hchild)
      rw [hread] at hread'
      obtain ⟨rfl, rfl⟩ := Prod.mk.inj (Except.ok.inj hread')
      exact ⟨c, hchild, by rw [haccounted'.name_eq, haccounted.name_eq]⟩

/-- Analyses of the same name have called the same flows, unless calls lie too deep. -/
theorem Tells.exists_child {t t' : String} {b m : Analysis} (hnames : NamesDiffer src)
    (h : Tells src opts t (.ok n)) (h' : Tells src opts t' (.ok m)) (hname : m.name = n.name)
    (hmade : ∀ c ∈ n.nodes, ∀ name depth, c ≠ .depthExceeded name depth)
    (hmade' : ∀ c ∈ m.nodes, ∀ name depth, c ≠ .depthExceeded name depth)
    (hb : some b ∈ n.children) : ∃ d, some d ∈ m.children ∧ d.name = b.name := by
  obtain ⟨mdn, versionn, hread, hn⟩ := h.accounted (hmade _ (Analysis.mem_nodes_self _))
  obtain ⟨mdm, versionm, hread', hm⟩ := h'.accounted (hmade' _ (Analysis.mem_nodes_self _))
  obtain rfl : t = t' := hnames t t' _ _ hread hread' (by rw [← hn.name_eq, ← hm.name_eq, hname])
  rw [hread'] at hread
  obtain ⟨rfl, rfl⟩ := Prod.mk.inj (Except.ok.inj hread)
  have hchild {a c : Analysis} (hc : some c ∈ a.children) : c ∈ a.nodes :=
    Analysis.mem_nodes_of_child hc (Analysis.mem_nodes_self _)
  exact hn.exists_child hm hb (hmade _ (hchild hb)) fun c hc ↦ hmade' _ (hchild hc)

end Resolve

namespace Fingerprint

open Resolve

variable {src : Source} {opts : Resolver.Options} {md : Metadata} {version : Version}
  {a b n : Analysis}

theorem exists_tells_of_mem_counted (ha : Accounted src opts md version a) (hn : n ∈ counted a) :
    n ∈ a.nodes ∧ ∃ name, Tells src opts name (.ok n) := by
  obtain ⟨b, hb, hn⟩ := mem_nodes_of_mem_countedIn hn
  obtain ⟨name, -, htells⟩ := ha.tells_child hb
  obtain ⟨t, -, ht⟩ := htells.of_mem_nodes hn
  exact ⟨Analysis.mem_nodes_of_child hb hn, t, ht⟩

theorem exists_counted (hnames : NamesDiffer src) (ha : Accounted src opts md version a)
    (hcomplete : ∀ n ∈ a.nodes, ∀ name depth, n ≠ .depthExceeded name depth)
    (hb : some b ∈ a.children) (hn : n ∈ b.nodes) : ∃ m ∈ counted a, m.name = n.name := by
  obtain ⟨hmet, hclosed⟩ := isClosed_countedIn [] a.children
  refine hclosed.exists_mem (fun m hm c hc hname d hd ↦ ?_)
    ((hmet b hb).resolve_left List.not_mem_nil) n hn
  obtain ⟨called, -, htells⟩ := ha.tells_child hb
  obtain ⟨t, -, htells⟩ := htells.of_mem_nodes hc
  obtain ⟨hmem, t', htells'⟩ := exists_tells_of_mem_counted ha hm
  exact htells.exists_child hnames htells' hname
    (fun x hx ↦ hcomplete x (Analysis.mem_nodes_of_child hb (Analysis.mem_nodes_trans hc hx)))
    (fun x hx ↦ hcomplete x (Analysis.mem_nodes_trans hmem hx)) hd

end Fingerprint

end FlowAudit
