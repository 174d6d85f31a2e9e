import FlowAudit.Proofs.Loops.Moves
import Mathlib.Data.List.Chain

namespace FlowAudit.Loops

open Relation

variable {g : Graph} {opts : Options} {s s' : State} {x t l : Element} {c : Context}
  {path : List Element}

/-- How a path into the loop can begin: where the loop leads, or at an element that takes in values
and mentions the loop's variable. -/
def Starts (g : Graph) (opts : Options) (l a : Element) : Via → Prop
  | .connector => Follows g opts l a
  | .reference => takesValues a.kind = true ∧ Mentions a l

/-- The path is why the element is in the loop, as the context tells. -/
structure Witness (g : Graph) (opts : Options) (x : Element) (c : Context) (l : Element)
    (path : List Element) : Prop where
  isInLoop : c.isInLoop = true
  isLoop : l ∈ g.loops
  loop : c.loop = l.name
  ne : c.loop ≠ x.name
  depth_pos : 1 ≤ c.depth
  depth_le : c.depth ≤ g.loops.length
  names : c.path = path.map (·.name)
  kinds : c.pathKinds = path.map (·.kind)
  nodup : c.path.Nodup
  mem : ∀ a ∈ path, a ∈ g.elements
  last : path.getLast? = some x
  inner : ∀ a ∈ path.dropLast, a.kind ≠ .loop
  chain : path.IsChain (Follows g opts)
  starts : ∀ a, path.head? = some a → Starts g opts l a c.via

def Witnessed (g : Graph) (opts : Options) (name : String) (c : Context) : Prop :=
  ∃ x ∈ g.elements, x.name = name ∧ ∃ l path, Witness g opts x c l path

/-- The assigned context has a path, and everything on it has once been in the loop at that depth.
So a path that is made longer never meets itself. -/
def Supported (g : Graph) (opts : Options) (s : State) (a : Assignment) : Prop :=
  Witnessed g opts a.name a.context ∧
    ∀ n ∈ a.context.path, s.hasHeld n a.context.loop a.context.depth = true

theorem kindsOf_singleton (hg : g.Distinct) (ht : t ∈ g.elements) :
    kindsOf g [t.name] = [t.kind] := by
  simp only [kindsOf, List.filterMap_cons, hg.kind?_eq ht, List.filterMap_nil]

theorem witness_singleton (hl : l ∈ g.loops) (hx : x ∈ g.elements) (hin : c.isInLoop = true)
    (hloop : c.loop = l.name) (hne : x.name ≠ l.name) (hpos : 1 ≤ c.depth)
    (hle : c.depth ≤ g.loops.length) (hpath : c.path = [x.name]) (hkinds : c.pathKinds = [x.kind])
    (hs : Starts g opts l x c.via) : Witness g opts x c l [x] where
  isInLoop := hin
  isLoop := hl
  loop := hloop
  ne := hloop ▸ hne.symm
  depth_pos := hpos
  depth_le := hle
  names := hpath
  kinds := hkinds
  nodup := hpath ▸ List.nodup_singleton _
  mem a ha := List.mem_singleton.mp ha ▸ hx
  last := rfl
  inner := by simp
  chain := .singleton _
  starts a ha := Option.some.inj ha ▸ hs

theorem witness_entering (hg : g.Distinct) (hl : l ∈ g.loops) (hx : x ∈ g.elements)
    (hf : Follows g opts l x) (hne : x.name ≠ l.name) {depth : Nat} (hpos : 1 ≤ depth)
    (hle : depth ≤ g.loops.length) : Witness g opts x (entering g l.name depth x.name) l [x] :=
  witness_singleton hl hx rfl rfl hne hpos hle rfl (kindsOf_singleton hg hx) hf

theorem witness_mentioning (hg : g.Distinct) (hl : l ∈ g.loops) (hx : x ∈ g.elements)
    (hk : takesValues x.kind = true) (hm : Mentions x l) :
    Witness g opts x (mentioning x l.name) l [x] := by
  obtain ⟨hle, hlk⟩ := Graph.mem_loops.mp hl
  have hne : x.name ≠ l.name := by
    intro hn
    exact takesValues_ne_loop hk (hg.eq_of_name hx hle hn ▸ hlk)
  exact witness_singleton hl hx rfl rfl hne le_rfl (List.length_pos_of_mem hl) rfl rfl ⟨hk, hm⟩

theorem Witness.snoc (hg : g.Distinct) (h : Witness g opts x c l path) (hk : x.kind ≠ .loop)
    (ht : t ∈ g.elements) (hf : Follows g opts x t) (hne : t.name ≠ c.loop)
    (hnew : t.name ∉ c.path) :
    Witness g opts t { c with
      isInLoop := true, path := c.path ++ [t.name]
      pathKinds := c.pathKinds ++ kindsOf g [t.name] } l (path ++ [t]) where
  isInLoop := rfl
  isLoop := h.isLoop
  loop := h.loop
  ne := hne.symm
  depth_pos := h.depth_pos
  depth_le := h.depth_le
  names := by simp only [h.names, List.map_append, List.map_cons, List.map_nil]
  kinds := by
    simp only [h.kinds, kindsOf_singleton hg ht, List.map_append, List.map_cons, List.map_nil]
  nodup := List.Nodup.append h.nodup (List.nodup_singleton _) (by simpa using hnew)
  mem a ha := by
    obtain ha | ha := List.mem_append.mp ha
    · exact h.mem a ha
    · exact List.mem_singleton.mp ha ▸ ht
  last := List.getLast?_concat
  inner a ha := by
    rw [List.dropLast_concat, ← List.dropLast_append_getLast? x h.last] at ha
    obtain ha | ha := List.mem_append.mp ha
    · exact h.inner a ha
    · exact List.mem_singleton.mp ha ▸ hk
  chain := by
    refine h.chain.append (.singleton _) ?_
    intro a ha b hb
    obtain rfl : x = a := Option.some.inj (h.last.symm.trans ha)
    exact Option.some.inj hb ▸ hf
  starts a ha := by
    refine h.starts a ?_
    have hpath : path ≠ [] := by
      rintro rfl
      exact absurd h.last (by simp)
    rwa [List.head?_append_of_ne_nil _ hpath] at ha

theorem Supported.mono {a : Assignment} (h : Supported g opts s a)
    (hs : ∀ n loop depth, s.hasHeld n loop depth = true → s'.hasHeld n loop depth = true) :
    Supported g opts s' a := by
  exact ⟨h.1, fun n hn ↦ hs _ _ _ (h.2 n hn)⟩

/-- What is supported in a state stays so when a supported context is assigned. -/
theorem supported_assign (hs : ∀ a ∈ s.log, Supported g opts s a) (hx : x ∈ g.elements)
    (hw : Witness g opts x c l path)
    (hheld : ∀ n ∈ c.path, n = x.name ∨ s.hasHeld n c.loop c.depth = true) :
    ∀ a ∈ (s.assign x.name c).log, Supported g opts (s.assign x.name c) a := by
  intro a ha
  obtain rfl | ha := List.mem_cons.mp ha
  · refine ⟨⟨x, hx, rfl, l, path, hw⟩, fun n hn ↦ ?_⟩
    obtain rfl | hn := hheld n hn
    · exact State.hasHeld_assign_self s
    · exact State.hasHeld_assign n hn
  · exact (hs a ha).mono fun n _ _ ↦ State.hasHeld_assign n

theorem supported_claims (hg : g.Distinct) (h : Claims g opts s s')
    (hs : ∀ a ∈ s.log, Supported g opts s a) : ∀ a ∈ s'.log, Supported g opts s' a := by
  obtain ⟨hl, ht, hne, -⟩ := h
  obtain ⟨x, hx, rfl⟩ := mem_elements_of_mem_followed ht
  have hf := (mem_followed_iff hg (Graph.mem_loops.mp hl).1 hx).mp ht
  exact supported_assign hs hx
    (witness_entering hg hl hx hf hne le_rfl (List.length_pos_of_mem hl))
    (fun n hn ↦ .inl (List.mem_singleton.mp hn))

theorem supported_places (hg : g.Distinct) (h : Places g s s')
    (hs : ∀ a ∈ s.log, Supported g opts s a) : ∀ a ∈ s'.log, Supported g opts s' a := by
  obtain ⟨he, hk, -, href⟩ := h
  obtain ⟨l, hl, rfl, hm⟩ := mentions_of_referencedLoop? href
  exact supported_assign hs he (witness_mentioning hg hl he hk hm)
    (fun n hn ↦ .inl (List.mem_singleton.mp hn))

theorem supported_passes (hg : g.Distinct) (h : Passes g opts s s')
    (hs : ∀ a ∈ s.log, Supported g opts s a) : ∀ a ∈ s'.log, Supported g opts s' a := by
  cases h with
  | round => exact hs
  | @take e c cand t he hc ht hcand ha =>
    obtain ⟨x, hx, rfl⟩ := mem_elements_of_mem_followed ht
    have hf := (mem_followed_iff hg he hx).mp ht
    obtain ⟨⟨e', he', hn, l, path, hw⟩, hheld⟩ := hs _ (State.mem_log_of_context? hc)
    obtain rfl : e' = e := hg.eq_of_name he' he hn
    obtain ⟨hdepth, -, -, hnew⟩ := accepts_iff.mp ha
    obtain ⟨hloop, hself, ⟨hk, rfl⟩ | ⟨hk, rfl⟩⟩ := candidate?_eq_some.mp hcand
    · exact supported_assign hs hx
        (witness_entering hg (Graph.mem_loops.mpr ⟨he, hk⟩) hx hf hself (by omega) hdepth)
        (fun n hn ↦ .inl (List.mem_singleton.mp hn))
    · -- A member of the path has held this loop and depth, and would not be offered them again.
      refine supported_assign hs hx
        (hw.snoc hg hk hx hf hloop fun hmem ↦ hnew (hheld _ hmem)) (fun n hn ↦ ?_)
      obtain hn | hn := List.mem_append.mp hn
      · exact .inr (hheld n hn)
      · exact .inl (List.mem_singleton.mp hn)

theorem supported_moves (hg : g.Distinct) (h : Moves g opts s s')
    (hs : ∀ a ∈ s.log, Supported g opts s a) : ∀ a ∈ s'.log, Supported g opts s' a := by
  obtain h | h | h := h
  · exact supported_claims hg h hs
  · exact supported_passes hg h hs
  · exact supported_places hg h hs

theorem supported_run (hg : g.Distinct) (h : ReflTransGen (Moves g opts) {} s) :
    ∀ a ∈ s.log, Supported g opts s a :=
  preserved_of_reflTransGen (P := fun s ↦ ∀ a ∈ s.log, Supported g opts s a)
    (fun _ _ ↦ supported_moves hg) h (by simp)

theorem witnessed_run (hg : g.Distinct) (h : ReflTransGen (Moves g opts) {} s) {name : String}
    (hc : s.context? name = some c) : Witnessed g opts name c :=
  (supported_run hg h _ (State.mem_log_of_context? hc)).1

/-- Every context that an element is ever given has a path that is why it is in the loop, and so has
the context that it ends up with. -/
theorem contexts_have_witnesses (md : Metadata) (opts : Options) :
    (∀ a ∈ (propagate (Graph.build md) opts).log,
      Witnessed (Graph.build md) opts a.name a.context) ∧
    ∀ name c, (propagate (Graph.build md) opts).context? name = some c →
      Witnessed (Graph.build md) opts name c := by
  have hg := Graph.distinct_build md
  have hrun := propagate_run (Graph.build md) opts
  exact ⟨fun a ha ↦ (supported_run hg hrun a ha).1, fun name c hc ↦ witnessed_run hg hrun hc⟩

/-- A loop in a loop: the inner one repeats two steps and is left for a call. Another step, which no
connector leads to, mentions the inner loop's variable and leads to a last one. -/
def nestedFlow : Metadata where
  name := "Nested"
  steps
    | .loop => [{ name := "Outer", nextValueConnector := some "Inner" },
        { name := "Inner", nextValueConnector := some "Create"
          noMoreValuesConnector := some "Call" }]
    | .recordCreate => [{ name := "Create", connector := some "Update" }]
    | .recordUpdate => [{ name := "Update", connector := some "Inner" }]
    | .subflow => [{ name := "Call", flowName := "Child", connector := some "Outer" }]
    | .assignment => [{ name := "Note", connector := some "Send"
                        assignmentItems := [{ value := { elementReference := "Inner.Name" } }] }]
    | .actionCall => [{ name := "Send" }]
    | _ => []

/-- The second step of the inner loop is two loops deep, behind the first step. -/
theorem nested_context_has_witness :
    (propagate (Graph.build nestedFlow) {}).context? "Update" = some ⟨true, "Inner", 2,
      ["Create", "Update"], [.recordCreate, .recordUpdate], .connector⟩ ∧
    Witnessed (Graph.build nestedFlow) {} "Update" ⟨true, "Inner", 2,
      ["Create", "Update"], [.recordCreate, .recordUpdate], .connector⟩ := by
  have h : (propagate (Graph.build nestedFlow) {}).context? "Update" = some ⟨true, "Inner", 2,
      ["Create", "Update"], [.recordCreate, .recordUpdate], .connector⟩ := by decide +kernel
  exact ⟨h, (contexts_have_witnesses nestedFlow {}).2 _ _ h⟩

end FlowAudit.Loops
