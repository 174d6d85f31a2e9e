import FlowAudit.Proofs.Resolution.Plain

namespace FlowAudit.Analysis

theorem induction_called {P : Analysis → Prop}
    (node : ∀ f children, (∀ b, some b ∈ children → P b) → P (node f children)) : ∀ a, P a
  | .node f children => node f children fun b _ ↦ induction_called node b
  termination_by a => sizeOf a
  decreasing_by
    have hb := List.sizeOf_lt_of_mem (by assumption : some b ∈ children)
    simp only [Option.some.sizeOf_spec, Analysis.node.sizeOf_spec] at hb ⊢
    omega

theorem forall_mem_nodes_iff {P : Analysis → Prop} {f : Findings} {children : List (Option Analysis)} :
    (∀ n ∈ (node f children).nodes, P n) ↔
      P (node f children) ∧ ∀ b, some b ∈ children → ∀ n ∈ b.nodes, P n := by
  constructor
  · intro h
    exact ⟨h _ (mem_nodes_self _), fun b hb n hn ↦ h n (mem_nodes_of_child hb hn)⟩
  · rintro ⟨hself, hbelow⟩ n hn
    obtain rfl | ⟨b, hb, hn⟩ := mem_nodes_iff.1 hn
    · exact hself
    · exact hbelow b hb n hn

def descendants (a : Analysis) : List Analysis := visitedIn (fun _ ↦ true) a.children

theorem mem_descendants_iff {a n : Analysis} :
    n ∈ a.descendants ↔ ∃ b, some b ∈ a.children ∧ n ∈ b.nodes :=
  mem_visitedIn_iff

theorem nodes_eq_cons (a : Analysis) : a.nodes = a :: a.descendants := by
  obtain ⟨f, children⟩ := a
  rw [nodes, visited, if_pos rfl]
  rfl

theorem mem_nodes_trans {a m n : Analysis} (hm : m ∈ a.nodes) (hn : n ∈ m.nodes) : n ∈ a.nodes := by
  induction a using induction_called with
  | node f children ih =>
    obtain rfl | ⟨b, hb, hm⟩ := mem_nodes_iff.1 hm
    · exact hn
    · exact mem_nodes_of_child hb (ih b hb hm)

mutual

def mapAll (g : Findings → Findings) : Analysis → Analysis
  | node f children => node (g f) (mapAllIn g children)

def mapAllIn (g : Findings → Findings) : List (Option Analysis) → List (Option Analysis)
  | [] => []
  | none :: rest => none :: mapAllIn g rest
  | some a :: rest => some (mapAll g a) :: mapAllIn g rest

end

variable {g : Findings → Findings}

theorem mapAllIn_eq_map (children : List (Option Analysis)) :
    mapAllIn g children = children.map (Option.map (mapAll g)) := by
  induction children with
  | nil => rfl
  | cons c children ih => cases c <;> simp [mapAllIn, ih]

theorem mapAll_node (f : Findings) (children : List (Option Analysis)) :
    mapAll g (node f children) = node (g f) (children.map (Option.map (mapAll g))) := by
  rw [mapAll, mapAllIn_eq_map]

theorem findings_mapAll (a : Analysis) : (a.mapAll g).findings = g a.findings := by
  cases a
  rfl

/-- An analysis stays as it is where nothing is changed in the findings about any flow, and only there. -/
theorem mapAll_eq_self_iff {a : Analysis} :
    a.mapAll g = a ↔ ∀ n ∈ a.nodes, g n.findings = n.findings := by
  induction a using induction_called with
  | node f children ih =>
    have hchildren : children.map (Option.map (mapAll g)) = children ↔
        ∀ b, some b ∈ children → b.mapAll g = b := by
      have hiff := List.map_inj_left (l := children) (f := Option.map (mapAll g)) (g := id)
      rw [List.map_id] at hiff
      rw [hiff]
      constructor
      · intro h b hb
        simpa using h _ hb
      · rintro h (- | b) hb
        · rfl
        · exact congrArg some (h b hb)
    rw [mapAll_node, node.injEq, hchildren]
    constructor
    · rintro ⟨hf, hcalled⟩ n hn
      obtain rfl | ⟨b, hb, hn⟩ := mem_nodes_iff.1 hn
      · exact hf
      · exact (ih b hb).1 (hcalled b hb) n hn
    · intro h
      exact ⟨h _ (mem_nodes_self _), fun b hb ↦ (ih b hb).2 fun n hn ↦ h n (mem_nodes_of_child hb hn)⟩

end FlowAudit.Analysis
