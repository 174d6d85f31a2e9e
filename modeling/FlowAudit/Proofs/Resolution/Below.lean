import FlowAudit.Proofs.Fingerprint.Counted
import FlowAudit.Proofs.Resolution.Order

namespace FlowAudit.Resolve

open Relation

variable {src : Source} {opts : Resolver.Options} {md : Metadata} {version : Option Version}
  {depth : Int} {name root t : String} {o : Outcome} {a n m : Analysis}

theorem GatheredFrom.mono {Q Q' : String → Outcome → Prop}
    (h : GatheredFrom opts Q md version depth a) (hQ : ∀ name o, Q name o → Q' name o) :
    GatheredFrom opts Q' md version depth a := by
  obtain ⟨called, hcalled, rfl⟩ := h
  exact ⟨called, fun call hcall ↦ hQ _ _ (hcalled call hcall), rfl⟩

theorem Made.mono {Q Q' : String → Outcome → Prop} (h : Made src opts Q depth name o)
    (hQ : ∀ name o, Q name o → Q' name o) : Made src opts Q' depth name o := by
  cases h with
  | failed hread => exact .failed hread
  | gathered hread ha => exact .gathered hread (ha.mono hQ)

def AnswersBelow (Given : Nat → Int → String → Outcome → Prop) (o : Outcome) : Prop :=
  ∀ a, o = .ok a → ∀ n ∈ a.nodes, ∃ left depth name, Given left depth name (.ok n)

namespace Answering

variable {Asked Asked' : Nat → Int → String → Prop} {Kept Kept' : String → Outcome → Prop}
  {Given Given' : Nat → Int → String → Outcome → Prop}

theorem and (h : Answering src opts Asked Kept Given) (h' : Answering src opts Asked' Kept' Given') :
    Answering src opts (fun left depth name ↦ Asked left depth name ∧ Asked' left depth name)
      (fun name o ↦ Kept name o ∧ Kept' name o)
      (fun left depth name o ↦ Given left depth name o ∧ Given' left depth name o) where
  limit depth name hasked := ⟨h.limit depth name hasked.1, h'.limit depth name hasked.2⟩
  below left depth name hasked md version hread call hcall :=
    ⟨h.below left depth name hasked.1 md version hread call hcall,
      h'.below left depth name hasked.2 md version hread call hcall⟩
  made left depth name hasked o hmade :=
    ⟨h.made left depth name hasked.1 o (hmade.mono fun _ _ hgiven ↦ hgiven.1),
      h'.made left depth name hasked.2 o (hmade.mono fun _ _ hgiven ↦ hgiven.2)⟩
  keep left depth name hasked o hgiven :=
    ⟨h.keep left depth name hasked.1 o hgiven.1, h'.keep left depth name hasked.2 o hgiven.2⟩
  serve left depth name hasked o hkept :=
    ⟨h.serve left depth name hasked.1 o hkept.1, h'.serve left depth name hasked.2 o hkept.2⟩

theorem nodes (h : Answering src opts Asked Kept Given) :
    Answering src opts Asked (fun name o ↦ Kept name o ∧ AnswersBelow Given o)
      (fun left depth name o ↦ Given left depth name o ∧ AnswersBelow Given o) where
  limit depth name hasked := by
    refine ⟨h.limit depth name hasked, fun a heq n hn ↦ ?_⟩
    obtain rfl := Except.ok.inj heq
    obtain rfl := List.mem_singleton.mp (Analysis.nodes_depthExceeded name depth ▸ hn)
    exact ⟨0, depth, name, h.limit depth name hasked⟩
  below := h.below
  made left depth name hasked o hmade := by
    have hgiven := h.made left depth name hasked o (hmade.mono fun _ _ hgiven ↦ hgiven.1)
    refine ⟨hgiven, fun a heq n hn ↦ ?_⟩
    subst heq
    obtain rfl | ⟨b, hb, hbelow⟩ := Analysis.mem_nodes_iff.mp hn
    · exact ⟨left + 1, depth, name, hgiven⟩
    · cases hmade with
      | gathered hread ha =>
        obtain ⟨called, hcalled, rfl⟩ := ha
        obtain ⟨call, hcall, hok⟩ := mem_children_gather.mp hb
        exact (hcalled call hcall).2 b hok n hbelow
  keep left depth name hasked o hgiven := ⟨h.keep left depth name hasked o hgiven.1, hgiven.2⟩
  serve left depth name hasked o hkept := by
    have hgiven := h.serve left depth name hasked o hkept.1
    refine ⟨hgiven, fun a heq n hn ↦ ?_⟩
    cases o with
    | error e => cases heq
    | ok a' =>
      rw [heq] at hgiven
      obtain rfl := Except.ok.inj heq
      -- Only the analysis that is served is told to be an earlier one.
      obtain rfl | ⟨b, hb, hbelow⟩ := Analysis.mem_nodes_iff.mp hn
      · exact ⟨left + 1, depth, name, hgiven⟩
      · obtain ⟨f, children⟩ := a'
        exact hkept.2 _ rfl n (Analysis.mem_nodes_of_child hb hbelow)

end Answering

theorem exists_told_below (ha : ((analyze src opts root).run {}).1 = .ok a) :
    (∃ md version, readFlow src root = .ok (md, version) ∧ Accounted src opts md version a) ∧
      ∀ n ∈ a.descendants, ∃ t, Tells src opts t (.ok n) ∧ Honest src opts t (.ok n) := by
  have hanswer := (((answering_tells src opts).and (answering_honest src opts)).nodes.gives_analyze root
    (fun _ _ _ _ _ ↦ ⟨trivial, by decide⟩) {} (holds_empty src _)).1
  rw [ha] at hanswer
  cases hread : readFlow src root with
  | error e =>
    rw [hread] at hanswer
    cases hanswer
  | ok p =>
    rw [hread] at hanswer
    cases hanswer with
    | gathered hgathered =>
      refine ⟨⟨_, _, rfl, accounted_of_gatheredFrom (fun _ _ h ↦ h.1.1.1) hgathered⟩, fun n hn ↦ ?_⟩
      obtain ⟨called, hcalled, rfl⟩ := hgathered
      obtain ⟨b, hb, hn⟩ := Analysis.mem_descendants_iff.1 hn
      obtain ⟨call, hcall, hok⟩ := mem_children_gather.mp hb
      obtain ⟨left, depth, t, hgiven⟩ := (hcalled call hcall).2 b hok n hn
      exact ⟨t, hgiven.1.1, hgiven.2⟩

/-- A flow whose calls can all be followed does not call itself, directly or not. -/
theorem Costs.not_calls_self {cost : Measure → Int} (h : Costs src opts t cost) :
    ¬TransGen (Calls src) t t := by
  induction h with
  | failed hread =>
    intro hcycle
    obtain ⟨t, ⟨md, version, hread', -⟩, -⟩ := TransGen.head'_iff.1 hcycle
    rw [hread] at hread'
    cases hread'
  | @read name md version called hread _ ih =>
    intro hcycle
    obtain ⟨t, ⟨md', version', hread', hcalled⟩, hpath⟩ := TransGen.head'_iff.1 hcycle
    obtain ⟨rfl, rfl⟩ := Prod.mk.inj (Except.ok.inj (hread.symm.trans hread'))
    have hcall : (t, isCalledInLoop opts md t) ∈ callsOf opts md := by
      rw [callsOf_eq_map]
      exact List.mem_map_of_mem hcalled
    -- The cycle passes through the called flow, too.
    exact ih _ hcall (TransGen.tail' hpath ⟨md, version, hread, hcalled⟩)

theorem ne_depthExceeded (hcomplete : ∀ n ∈ a.nodes, n.isDepthExceeded = false) :
    ∀ n ∈ a.nodes, ∀ name depth, n ≠ .depthExceeded name depth :=
  Outcome.complete_of_isComplete (Outcome.isComplete_ok_iff.2 hcomplete) a rfl

/-- An analysis below tells the totals of the flow whose document holds its name. -/
theorem exists_costs_below (ha : ((analyze src opts root).run {}).1 = .ok a)
    (hcomplete : ∀ n ∈ a.nodes, n.isDepthExceeded = false) (hn : n ∈ a.descendants) :
    ∃ t md version, readFlow src t = .ok (md, version) ∧ md.name = n.name ∧
      Costs src opts t (Measure.total n) := by
  obtain ⟨t, htells, hhonest⟩ := (exists_told_below ha).2 n hn
  obtain ⟨b, hb, hn⟩ := Analysis.mem_descendants_iff.1 hn
  have hmem := Analysis.mem_nodes_of_child hb hn
  obtain ⟨md, version, hread, haccounted⟩ := htells.accounted (ne_depthExceeded hcomplete n hmem)
  refine ⟨t, md, version, hread, haccounted.name_eq.symm, hhonest ?_⟩
  exact Outcome.isComplete_ok_iff.2 fun x hx ↦ hcomplete x (Analysis.mem_nodes_trans hmem hx)

theorem total_eq_of_name_eq (hnames : NamesDiffer src)
    (ha : ((analyze src opts root).run {}).1 = .ok a)
    (hcomplete : ∀ n ∈ a.nodes, n.isDepthExceeded = false) (hm : m ∈ a.descendants)
    (hn : n ∈ a.descendants) (h : m.name = n.name) (k : Measure) : k.total m = k.total n := by
  obtain ⟨t, md, version, hread, hname, hcosts⟩ := exists_costs_below ha hcomplete hm
  obtain ⟨t', md', version', hread', hname', hcosts'⟩ := exists_costs_below ha hcomplete hn
  obtain rfl : t = t' := hnames t t' _ _ hread hread' (hname.trans (h.trans hname'.symm))
  exact congrFun (hcosts.eq (fun name ↦ matches_refl opts (readFlow src name)) hcosts') k

theorem name_ne_of_mem_descendants (hnames : NamesDiffer src)
    (ha : ((analyze src opts root).run {}).1 = .ok a)
    (hcomplete : ∀ n ∈ a.nodes, n.isDepthExceeded = false) (hn : n ∈ a.descendants) :
    n.name ≠ a.name := by
  intro hname
  obtain ⟨⟨md, version, hread, haccounted⟩, -⟩ := exists_told_below ha
  obtain ⟨t, md', version', hread', hname', hcosts⟩ := exists_costs_below ha hcomplete hn
  obtain ⟨b, hb, hn⟩ := Analysis.mem_descendants_iff.1 hn
  obtain ⟨called, hcalled, hb'⟩ := haccounted.tells_child hb
  obtain ⟨t', hpath, htells⟩ := hb'.of_mem_nodes hn
  obtain ⟨md'', version'', hread'', haccounted''⟩ :=
    htells.accounted (ne_depthExceeded hcomplete n (Analysis.mem_nodes_of_child hb hn))
  have hroot : md.name = n.name := haccounted.name_eq.symm.trans hname.symm
  obtain rfl : root = t := hnames root t _ _ hread hread' (hroot.trans hname'.symm)
  obtain rfl : root = t' := hnames root t' _ _ hread hread'' (hroot.trans haccounted''.name_eq)
  exact hcosts.not_calls_self (TransGen.head' ⟨md, version, hread, hcalled⟩ hpath)

end FlowAudit.Resolve
