import FlowAudit.Proofs.Resolution.Answers
import FlowAudit.Source.Basic

namespace FlowAudit.Resolve

variable {src : Source} {opts : Resolver.Options}

/-- The outcome is that of an analysis of the called flow in which all calls were followed. -/
def Known (src : Source) (opts : Resolver.Options) (name : String) (o : Outcome) : Prop :=
  ∃ left depth, 0 < depth ∧ (plain src opts left depth name).Complete ∧
    o.bare = (plain src opts left depth name).bare

/-- What the resolver holds is what the source and an analysis made anew would tell. -/
structure Faithful (src : Source) (opts : Resolver.Options) (r : Resolver) : Prop where
  fetched : ∀ p ∈ r.fetched, p.2 = src.fetch p.1
  known : ∀ name o, (name, some o) ∈ r.entries → Known src opts name o

theorem Faithful.holds {r : Resolver} (h : Faithful src opts r) : Holds src (Known src opts) r :=
  ⟨h.fetched, h.known⟩

theorem bare_served (o : Outcome) : o.served.bare = o.bare := by
  cases o with
  | error e => rfl
  | ok a => cases a; rfl

/-- Calls that can be followed to the end tell the same, whether they are the first or not: an entry
may have been made at another depth, but tells what an analysis made anew would. -/
theorem answering_plain (src : Source) (opts : Resolver.Options) :
    Answering src opts
      (fun left depth name ↦ 0 < depth ∧ (plain src opts left depth name).Complete)
      (Known src opts)
      (fun left depth name o ↦ o.bare = (plain src opts left depth name).bare) where
  limit depth name h := absurd h.2 (not_complete_depthExceeded name depth)
  below left depth name h md version hread call hcall := by
    obtain ⟨hdepth, hc⟩ := h
    simp only [plain, hread] at hc
    exact ⟨by omega, complete_called hcall hc⟩
  made left depth name _ o hmade := by
    cases hmade with
    | failed hread => simp only [plain, hread]
    | gathered hread ha =>
      obtain ⟨called, hcalled, rfl⟩ := ha
      simp only [plain, hread]
      exact congrArg Except.ok (bare_gather_congr hcalled rfl)
  keep left depth name h o ho := ⟨left + 1, depth, h.1, h.2, ho⟩
  serve left depth name h o hkept := by
    obtain ⟨left', depth', hdepth', hc', ho⟩ := hkept
    rw [bare_served, ho, bare_plain hdepth' h.1 hc' h.2]

theorem faithful_empty (src : Source) (opts : Resolver.Options) : Faithful src opts {} :=
  ⟨fun _ h ↦ absurd h List.not_mem_nil, fun _ _ h ↦ absurd h List.not_mem_nil⟩

/-- Both fail, if for reasons that are put differently, or both tell the same. -/
def Agrees (o p : Outcome) : Prop :=
  (∃ e e', o = .error e ∧ p = .error e') ∨ ∃ a b, o = .ok a ∧ p = .ok b ∧ a.bare = b.bare

theorem ensures_analyze {root : String} (hc : (plain src opts opts.maxDepth 0 root).Complete) :
    Ensures (Faithful src opts) (analyze src opts root) fun o _ ↦
      Agrees o (plain src opts opts.maxDepth 0 root) := by
  obtain ⟨left, hleft⟩ : ∃ left, opts.maxDepth = left + 1 := by
    cases hmax : opts.maxDepth with
    | zero =>
      rw [hmax] at hc
      exact absurd hc (not_complete_depthExceeded root 0)
    | succ left => exact ⟨left, rfl⟩
  have hsub : opts.maxDepth - 1 = left := by omega
  have hanswer := (answering_plain src opts).gives_analyze root fun md version hread call hcall ↦ by
    simp only [hleft, plain, hread] at hc
    exact ⟨by decide, hsub ▸ complete_called hcall hc⟩
  refine hanswer.weaken (fun r hr ↦ hr.holds) fun o r hr ↦ ?_
  rw [hleft, plain]
  cases hread : readFlow src root with
  | error e =>
    rw [hread] at hr
    cases hr.1 with
    | failed _ e' => exact .inl ⟨e', e, rfl, rfl⟩
  | ok p =>
    rw [hread] at hr
    cases hr.1 with
    | gathered ha =>
      obtain ⟨called, hcalled, rfl⟩ := ha
      refine .inr ⟨_, _, rfl, rfl, bare_gather_congr (fun call hcall ↦ ?_) rfl⟩
      exact hsub ▸ hcalled call hcall

/-- The flow that was asked for tells the same with a new resolver as without any, or fails like
there. -/
theorem analyze_eq_plain (src : Source) (opts : Resolver.Options) (root : String)
    (hc : (plain src opts opts.maxDepth 0 root).Complete) :
    ((∃ e, ((analyze src opts root).run {}).1 = .error e) ↔
      ∃ e, plain src opts opts.maxDepth 0 root = .error e) ∧
    ∀ p, plain src opts opts.maxDepth 0 root = .ok p →
      ∃ a, ((analyze src opts root).run {}).1 = .ok a ∧ a.bare = p.bare := by
  obtain ⟨e, e', ho, hp⟩ | ⟨a, b, ho, hp, hab⟩ := ensures_analyze hc {} (faithful_empty src opts)
  · rw [ho, hp]
    exact ⟨⟨fun _ ↦ ⟨e', rfl⟩, fun _ ↦ ⟨e, rfl⟩⟩, fun p h ↦ by cases h⟩
  · rw [ho, hp]
    refine ⟨by simp, fun p h ↦ ⟨a, rfl, ?_⟩⟩
    exact Except.ok.inj h ▸ hab

def callingFlow (name : String) (calls : List String) : Definition :=
  let call (flow : String) := Text.braces ("\"flowName\":\"" ++ flow ++ "\"")
  let text := Text.braces ("\"subflows\":[" ++ ",".intercalate (calls.map call) ++ "]")
  { name := name, format := "json", content := Text.Utf8.encode text.toList }

/-- The flow `C` is called at two depths, and calls one that is not there. -/
def sharedFlows : Source :=
  (Memory.ofList [callingFlow "A" ["B", "C"], callingFlow "B" ["C"],
    callingFlow "C" ["D"]]).source none

/-- The second call of `C` is answered from the first, at another depth. -/
theorem shared_call_eq_plain :
    (plain sharedFlows {} 10 0 "A").Complete ∧ ((analyze sharedFlows {} "A").run {}).2.hits = 1 ∧
    ∃ a p, ((analyze sharedFlows {} "A").run {}).1 = .ok a ∧
      plain sharedFlows {} 10 0 "A" = .ok p ∧ a.bare = p.bare := by
  have hc : (plain sharedFlows {} 10 0 "A").Complete :=
    Outcome.complete_of_isComplete (by decide +kernel)
  have hok : (plain sharedFlows {} 10 0 "A").isOk = true := by decide +kernel
  refine ⟨hc, by decide +kernel, ?_⟩
  cases hp : plain sharedFlows {} 10 0 "A" with
  | error e =>
    rw [hp] at hok
    cases hok
  | ok p =>
    obtain ⟨a, ha, hab⟩ := (analyze_eq_plain sharedFlows {} "A" hc).2 p hp
    exact ⟨a, p, ha, rfl, hab⟩

end FlowAudit.Resolve
